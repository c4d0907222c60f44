/-!
# Kinds of keys and certificates

The two choices that configuration makes for certificates: the algorithm of their keys, and the
side of a connection that they are for.
-/

namespace DeviceAccess

/-- The algorithm of a key pair. -/
inductive KeyType where
  | rsa2048
  | ecdsaP256
  deriving DecidableEq, Repr

/-- The name of a key algorithm. -/
def KeyType.name : KeyType → String
  | rsa2048 => "RSA_2048"
  | ecdsaP256 => "ECDSA_P256"

/-- What a leaf certificate is for. -/
inductive CertificateKind where
  | server
  | client
  deriving DecidableEq, Repr

/-- The name of a certificate kind. -/
def CertificateKind.name : CertificateKind → String
  | server => "server"
  | client => "client"

end DeviceAccess
