import KeyFile.Asn1.Operation
import KeyFile.Asn1.Element
import KeyFile.Text.Utf8
import KeyFile.Command.Surroundings
import KeyFile.Main
import KeyFile.Proofs.Asn1.Headers
import KeyFile.Proofs.Asn1.Identifiers
import KeyFile.Proofs.Asn1.Spelling
import KeyFile.Proofs.Asn1.Reading
import KeyFile.Proofs.Asn1.Trees
import KeyFile.Proofs.Encoding.Fields
import KeyFile.Proofs.Encoding.Structures
import KeyFile.Proofs.Encoding.Decoded
import KeyFile.Proofs.Encoding.PrivateKeys
import KeyFile.Proofs.Encoding.Decryption
import KeyFile.Proofs.Encoding.Produced
import KeyFile.Proofs.Encoding.Containers
import KeyFile.Proofs.Normalization
import KeyFile.Proofs.ScalarWidth
import KeyFile.Proofs.Pem.Base64
import KeyFile.Proofs.Text
import KeyFile.Proofs.Pem.Lines
import KeyFile.Proofs.Pem.Dashes
import KeyFile.Proofs.Pem.Headers
import KeyFile.Proofs.Pem.Blocks
import KeyFile.Proofs.Pem.Documents
import KeyFile.Proofs.Pem.Found
import KeyFile.Proofs.Pem.Rearmoring
import KeyFile.Proofs.Conversion
import KeyFile.Proofs.Agreement
import KeyFile.Proofs.Encryption
import KeyFile.Proofs.KeyInvariant
import KeyFile.Proofs.Crypto.Aes
import KeyFile.Proofs.Crypto.Des
import KeyFile.Proofs.Pem.Grammar
import KeyFile.Proofs.Pem.Layout
import KeyFile.Proofs.Encoding.Faults
import KeyFile.Proofs.ErrorKinds
import KeyFile.Proofs.Composition
import KeyFile.Proofs.Passwords
import KeyFile.Proofs.Encoding.Shortest
import KeyFile.Proofs.Delimitation
import KeyFile.Proofs.Curves
import KeyFile.Proofs.Encoding.Traditional
import KeyFile.Proofs.Json
import KeyFile.Proofs.Reports
import KeyFile.Proofs.Crypto.Digests
import KeyFile.Proofs.BareScalars
import KeyFile.Proofs.PublicKeyBits
import KeyFile.Proofs.Encoding.Schemes
import KeyFile.Proofs.DecryptionFailure
import KeyFile.Proofs.Asn1.Contents
import KeyFile.Proofs.Asn1.HeaderFaults
import KeyFile.Proofs.Asn1.Integers
import KeyFile.Proofs.Names
import KeyFile.Proofs.Asn1.HeaderFields
import KeyFile.Proofs.Asn1.Positions
import KeyFile.Proofs.Asn1.Locality
import KeyFile.Proofs.Pem.Joining
import KeyFile.Proofs.LegacyEncryption
import KeyFile.Proofs.Runs
import KeyFile.Proofs.AllOrNothing
import KeyFile.Proofs.Versions
