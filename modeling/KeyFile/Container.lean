import KeyFile.Encoding.EncryptedKeyInfo

/-!
# Keys as they are stored

The label of an armored block says which of four encodings its payload has. A block that is
encrypted by its armor is refused whatever its label.
-/
namespace KeyFile

inductive Container where
  | rsa (key : RsaKey)
  | ec (key : EcPrivateKey)
  | info (info : PrivateKeyInfo)
  | encrypted (info : EncryptedKeyInfo)
  deriving DecidableEq, Repr

namespace Container

/-- The name of the encoding. -/
def formatName : Container → String
  | .rsa _ => "PKCS#1"
  | .ec _ => "SEC1"
  | .info _ => "PKCS#8"
  | .encrypted _ => "Encrypted PKCS#8"

/-- Whether a password is needed. -/
def isEncrypted : Container → Bool
  | .encrypted _ => true
  | _ => false

def ofBlock (block : Pem.Block) : Except Error Container :=
  if block.isLegacyEncrypted then .error (.unsupported (.legacyEncryption block.label))
  else if block.label = .rsaPrivateKey then .rsa <$> RsaKey.decode block.payload
  else if block.label = .ecPrivateKey then .ec <$> EcPrivateKey.decode block.payload
  else if block.label = .privateKey then .info <$> PrivateKeyInfo.decode block.payload
  else if block.label = .encryptedPrivateKey then
    .encrypted <$> EncryptedKeyInfo.decode block.payload
  else if block.label = .dsaPrivateKey then .error (.unsupported .traditionalDsa)
  else .error .noKeyFound

/-- The private key; the password counts for encrypted keys only. -/
def toPrivateKey (password : Option Bytes) : Container → Except Error PrivateKey
  | .rsa key => .ok (.rsa key)
  | .ec key => key.toPrivateKey none
  | .info key => key.toPrivateKey
  | .encrypted key => key.toPrivateKey password

end Container

end KeyFile
