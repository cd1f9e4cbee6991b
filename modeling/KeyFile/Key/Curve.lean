import KeyFile.Asn1.ObjectIdentifier

/-!
# Named curves

The elliptic curves that keys may name, all of the form `y² = x³ + ax + b` over a prime field. Each
has a name, an object identifier and published domain parameters. The parameters are octets as they
are published, so a leading zero octet is there or not as the publication has it.
-/
namespace KeyFile

open Asn1 (ObjectIdentifier)
open BigEndian (octets)

inductive Curve where
  | secp224r1
  | secp256r1
  | secp256k1
  | secp384r1
  | secp521r1
  | brainpoolP256r1
  | brainpoolP320r1
  | brainpoolP384r1
  | brainpoolP512r1
  deriving DecidableEq, Repr

/-- What defines a curve and its base point. -/
structure DomainParameters where
  /-- The bits of the field prime. -/
  fieldSize : Nat
  prime : Bytes
  a : Bytes
  b : Bytes
  /-- The base point: the octet 4 and both coordinates. -/
  generator : Bytes
  order : Bytes
  cofactor : Nat
  deriving DecidableEq, Repr

namespace Curve

def all : List Curve :=
  [.secp224r1, .secp256r1, .secp256k1, .secp384r1, .secp521r1, .brainpoolP256r1, .brainpoolP320r1,
    .brainpoolP384r1, .brainpoolP512r1]

def name : Curve → String
  | .secp224r1 => "secp224r1"
  | .secp256r1 => "secp256r1"
  | .secp256k1 => "secp256k1"
  | .secp384r1 => "secp384r1"
  | .secp521r1 => "secp521r1"
  | .brainpoolP256r1 => "brainpoolP256r1"
  | .brainpoolP320r1 => "brainpoolP320r1"
  | .brainpoolP384r1 => "brainpoolP384r1"
  | .brainpoolP512r1 => "brainpoolP512r1"

def identifier : Curve → ObjectIdentifier
  | .secp224r1 => { arcs := [1, 3, 132, 0, 33] }
  | .secp256r1 => { arcs := [1, 2, 840, 10045, 3, 1, 7] }
  | .secp256k1 => { arcs := [1, 3, 132, 0, 10] }
  | .secp384r1 => { arcs := [1, 3, 132, 0, 34] }
  | .secp521r1 => { arcs := [1, 3, 132, 0, 35] }
  | .brainpoolP256r1 => { arcs := [1, 3, 36, 3, 3, 2, 8, 1, 1, 7] }
  | .brainpoolP320r1 => { arcs := [1, 3, 36, 3, 3, 2, 8, 1, 1, 9] }
  | .brainpoolP384r1 => { arcs := [1, 3, 36, 3, 3, 2, 8, 1, 1, 11] }
  | .brainpoolP512r1 => { arcs := [1, 3, 36, 3, 3, 2, 8, 1, 1, 13] }

def parameters : Curve → DomainParameters
  | .secp224r1 => {
      fieldSize := 224
      prime := octets 28 0xffffffffffffffffffffffffffffffff000000000000000000000001
      a := octets 28 0xfffffffffffffffffffffffffffffffefffffffffffffffffffffffe
      b := octets 28 0xb4050a850c04b3abf54132565044b0b7d7bfd8ba270b39432355ffb4
      generator :=
        octets 32 0x04b70e0cbd6bb4bf7f321390b94a03c1d356c21122343280d6115c1d21bd3763 ++
          octets 25 0x88b5f723fb4c22dfe6cd4375a05a07476444d5819985007e34
      order := octets 28 0xffffffffffffffffffffffffffff16a2e0b8f03e13dd29455c5c2a3d
      cofactor := 1 }
  | .secp256r1 => {
      fieldSize := 256
      prime := octets 32 0xffffffff00000001000000000000000000000000ffffffffffffffffffffffff
      a := octets 32 0xffffffff00000001000000000000000000000000fffffffffffffffffffffffc
      b := octets 32 0x5ac635d8aa3a93e7b3ebbd55769886bc651d06b0cc53b0f63bce3c3e27d2604b
      generator :=
        octets 32 0x046b17d1f2e12c4247f8bce6e563a440f277037d812deb33a0f4a13945d898c2 ++
          octets 32 0x964fe342e2fe1a7f9b8ee7eb4a7c0f9e162bce33576b315ececbb6406837bf51 ++
          octets 1 0xf5
      order := octets 32 0xffffffff00000000ffffffffffffffffbce6faada7179e84f3b9cac2fc632551
      cofactor := 1 }
  | .secp256k1 => {
      fieldSize := 256
      prime := octets 32 0xfffffffffffffffffffffffffffffffffffffffffffffffffffffffefffffc2f
      a := octets 1 0x00
      b := octets 1 0x07
      generator :=
        octets 32 0x0479be667ef9dcbbac55a06295ce870b07029bfcdb2dce28d959f2815b16f817 ++
          octets 32 0x98483ada7726a3c4655da4fbfc0e1108a8fd17b448a68554199c47d08ffb10d4 ++
          octets 1 0xb8
      order := octets 32 0xfffffffffffffffffffffffffffffffebaaedce6af48a03bbfd25e8cd0364141
      cofactor := 1 }
  | .secp384r1 => {
      fieldSize := 384
      prime :=
        octets 32 0xfffffffffffffffffffffffffffffffffffffffffffffffffffffffffffffffe ++
          octets 16 0xffffffff0000000000000000ffffffff
      a :=
        octets 32 0xfffffffffffffffffffffffffffffffffffffffffffffffffffffffffffffffe ++
          octets 16 0xffffffff0000000000000000fffffffc
      b :=
        octets 32 0xb3312fa7e23ee7e4988e056be3f82d19181d9c6efe8141120314088f5013875a ++
          octets 16 0xc656398d8a2ed19d2a85c8edd3ec2aef
      generator :=
        octets 32 0x04aa87ca22be8b05378eb1c71ef320ad746e1d3b628ba79b9859f741e082542a ++
          octets 32 0x385502f25dbf55296c3a545e3872760ab73617de4a96262c6f5d9e98bf9292dc ++
          octets 32 0x29f8f41dbd289a147ce9da3113b5f0b8c00a60b1ce1d7e819d7a431d7c90ea0e ++
          octets 1 0x5f
      order :=
        octets 32 0xffffffffffffffffffffffffffffffffffffffffffffffffc7634d81f4372ddf ++
          octets 16 0x581a0db248b0a77aecec196accc52973
      cofactor := 1 }
  | .secp521r1 => {
      fieldSize := 521
      prime :=
        octets 32 0x01ffffffffffffffffffffffffffffffffffffffffffffffffffffffffffffff ++
          octets 32 0xffffffffffffffffffffffffffffffffffffffffffffffffffffffffffffffff ++
          octets 2 0xffff
      a :=
        octets 32 0x01ffffffffffffffffffffffffffffffffffffffffffffffffffffffffffffff ++
          octets 32 0xffffffffffffffffffffffffffffffffffffffffffffffffffffffffffffffff ++
          octets 2 0xfffc
      b :=
        octets 32 0x51953eb9618e1c9a1f929a21a0b68540eea2da725b99b315f3b8b489918ef109 ++
          octets 32 0xe156193951ec7e937b1652c0bd3bb1bf073573df883d2c34f1ef451fd46b503f ++
          octets 1 0x00
      generator :=
        octets 32 0x0400c6858e06b70404e9cd9e3ecb662395b4429c648139053fb521f828af606b ++
          octets 32 0x4d3dbaa14b5e77efe75928fe1dc127a2ffa8de3348b3c1856a429bf97e7e31c2 ++
          octets 32 0xe5bd66011839296a789a3bc0045c8a5fb42c7d1bd998f54449579b446817afbd ++
          octets 32 0x17273e662c97ee72995ef42640c550b9013fad0761353c7086a272c24088be94 ++
          octets 5 0x769fd16650
      order :=
        octets 32 0x01ffffffffffffffffffffffffffffffffffffffffffffffffffffffffffffff ++
          octets 32 0xfffa51868783bf2f966b7fcc0148f709a5d03bb5c9b8899c47aebb6fb71e9138 ++
          octets 2 0x6409
      cofactor := 1 }
  | .brainpoolP256r1 => {
      fieldSize := 256
      prime := octets 32 0xa9fb57dba1eea9bc3e660a909d838d726e3bf623d52620282013481d1f6e5377
      a := octets 32 0x7d5a0975fc2c3057eef67530417affe7fb8055c126dc5c6ce94a4b44f330b5d9
      b := octets 32 0x26dc5c6ce94a4b44f330b5d9bbd77cbf958416295cf7e1ce6bccdc18ff8c07b6
      generator :=
        octets 32 0x048bd2aeb9cb7e57cb2c4b482ffc81b7afb9de27e1e3bd23c23a4453bd9ace32 ++
          octets 32 0x62547ef835c3dac4fd97f8461a14611dc9c27745132ded8e545c1d54c72f0469 ++
          octets 1 0x97
      order := octets 32 0xa9fb57dba1eea9bc3e660a909d838d718c397aa3b561a6f7901e0e82974856a7
      cofactor := 1 }
  | .brainpoolP320r1 => {
      fieldSize := 320
      prime :=
        octets 32 0xd35e472036bc4fb7e13c785ed201e065f98fcfa6f6f40def4f92b9ec7893ec28 ++
          octets 8 0xfcd412b1f1b32e27
      a :=
        octets 32 0x3ee30b568fbab0f883ccebd46d3f3bb8a2a73513f5eb79da66190eb085ffa9f4 ++
          octets 8 0x92f375a97d860eb4
      b :=
        octets 32 0x520883949dfdbc42d3ad198640688a6fe13f41349554b49acc31dccd88453981 ++
          octets 8 0x6f5eb4ac8fb1f1a6
      generator :=
        octets 32 0x0443bd7e9afb53d8b85289bcc48ee5bfe6f20137d10a087eb6e7871e2a10a599 ++
          octets 32 0xc710af8d0d39e2061114fdd05545ec1cc8ab4093247f77275e0743ffed117182 ++
          octets 17 0xeaa9c77877aaac6ac7d35245d1692e8ee1
      order :=
        octets 32 0xd35e472036bc4fb7e13c785ed201e065f98fcfa5b68f12a32d482ec7ee8658e9 ++
          octets 8 0x8691555b44c59311
      cofactor := 1 }
  | .brainpoolP384r1 => {
      fieldSize := 384
      prime :=
        octets 32 0x8cb91e82a3386d280f5d6f7e50e641df152f7109ed5456b412b1da197fb71123 ++
          octets 16 0xacd3a729901d1a71874700133107ec53
      a :=
        octets 32 0x7bc382c63d8c150c3c72080ace05afa0c2bea28e4fb22787139165efba91f90f ++
          octets 16 0x8aa5814a503ad4eb04a8c7dd22ce2826
      b :=
        octets 32 0x04a8c7dd22ce28268b39b55416f0447c2fb77de107dcd2a62e880ea53eeb62d5 ++
          octets 16 0x7cb4390295dbc9943ab78696fa504c11
      generator :=
        octets 32 0x041d1c64f068cf45ffa2a63a81b7c13f6b8847a3e77ef14fe3db7fcafe0cbd10 ++
          octets 32 0xe8e826e03436d646aaef87b2e247d4af1e8abe1d7520f9c2a45cb1eb8e95cfd5 ++
          octets 32 0x5262b70b29feec5864e19c054ff99129280e4646217791811142820341263c53 ++
          octets 1 0x15
      order :=
        octets 32 0x8cb91e82a3386d280f5d6f7e50e641df152f7109ed5456b31f166e6cac0425a7 ++
          octets 16 0xcf3ab6af6b7fc3103b883202e9046565
      cofactor := 1 }
  | .brainpoolP512r1 => {
      fieldSize := 512
      prime :=
        octets 32 0xaadd9db8dbe9c48b3fd4e6ae33c9fc07cb308db3b3c9d20ed6639cca70330871 ++
          octets 32 0x7d4d9b009bc66842aecda12ae6a380e62881ff2f2d82c68528aa6056583a48f3
      a :=
        octets 32 0x7830a3318b603b89e2327145ac234cc594cbdd8d3df91610a83441caea9863bc ++
          octets 32 0x2ded5d5aa8253aa10a2ef1c98b9ac8b57f1117a72bf2c7b9e7c1ac4d77fc94ca
      b :=
        octets 32 0x3df91610a83441caea9863bc2ded5d5aa8253aa10a2ef1c98b9ac8b57f1117a7 ++
          octets 32 0x2bf2c7b9e7c1ac4d77fc94cadc083e67984050b75ebae5dd2809bd638016f723
      generator :=
        octets 32 0x0481aee4bdd82ed9645a21322e9c4c6a9385ed9f70b5d916c1b43b62eef4d009 ++
          octets 32 0x8eff3b1f78e2d0d48d50d1687b93b97d5f7c6d5047406a5e688b352209bcb9f8 ++
          octets 32 0x227dde385d566332ecc0eabfa9cf7822fdf209f70024a57b1aa000c55b881f81 ++
          octets 32 0x11b2dcde494a5f485e5bca4bd88a2763aed1ca2b2fa8f0540678cd1e0f3ad808 ++
          octets 1 0x92
      order :=
        octets 32 0xaadd9db8dbe9c48b3fd4e6ae33c9fc07cb308db3b3c9d20ed6639cca70330870 ++
          octets 32 0x553e5c414ca92619418661197fac10471db1d381085ddaddb58796829ca90069
      cofactor := 1 }

/-- The bits of the field prime, which are the size of a key on the curve. -/
def fieldSize (curve : Curve) : Nat :=
  curve.parameters.fieldSize

/-- The octets of a private scalar, at most. -/
def scalarLength (curve : Curve) : Nat :=
  curve.parameters.order.length

/-- The curve of that identifier, which is compared with the listed ones by its text. -/
def ofIdentifier? (identifier : ObjectIdentifier) : Option Curve :=
  all.find? fun curve => curve.identifier.text = identifier.text

/-- The curve of that name; four curves have a second name, and one has a third. -/
def ofName? (name : String) : Option Curve :=
  if name = "prime256v1" ∨ name = "P-256" then some .secp256r1
  else if name = "P-224" then some .secp224r1
  else if name = "P-384" then some .secp384r1
  else if name = "P-521" then some .secp521r1
  else all.find? fun curve => curve.name = name

end Curve

end KeyFile
