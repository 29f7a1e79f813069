import Secp256k1.Binary
import Secp256k1.Octets
import Secp256k1.Modular
import Secp256k1.Error
import Secp256k1.Retry
import Secp256k1.Entropy
import Secp256k1.Field
import Secp256k1.Scalar
import Secp256k1.Point.Basic
import Secp256k1.Point.Group
import Secp256k1.Point.Encoding
import Secp256k1.NonAdjacentForm
import Secp256k1.Multiplier
import Secp256k1.Hash.RootTable
import Secp256k1.Hash.Sha2
import Secp256k1.Hash.Hmac
import Secp256k1.Nonce.Source
import Secp256k1.Nonce.Random
import Secp256k1.Nonce.Derived
import Secp256k1.Nonce.Prescribed
import Secp256k1.Signature.Basic
import Secp256k1.Signature.Der
import Secp256k1.Ecdsa
import Secp256k1.Key.Public
import Secp256k1.Key.Private
import Secp256k1.Key.Pair
import Secp256k1.Signer
import Secp256k1.Recovery
import Secp256k1.CompactSignature
import Secp256k1.Description
import Secp256k1.Proofs.BinaryDigits
import Secp256k1.Proofs.OctetStrings
import Secp256k1.Proofs.ModularPower
import Secp256k1.Proofs.FieldPowers
import Secp256k1.Proofs.ScalarPowers
import Secp256k1.Proofs.Primality
import Secp256k1.Proofs.FieldStructure
import Secp256k1.Proofs.CurveGroup
import Secp256k1.Proofs.GroupLaw
import Secp256k1.Proofs.Reading
import Secp256k1.Proofs.SquareRoots
import Secp256k1.Proofs.SignedDigits
import Secp256k1.Proofs.Multiples
import Secp256k1.Proofs.GroupOrder
import Secp256k1.Proofs.SignatureEquation
import Secp256k1.Proofs.Verification
import Secp256k1.Proofs.Signing
import Secp256k1.Proofs.PublicKeys
import Secp256k1.Proofs.KeyRecovery
import Secp256k1.Proofs.PointOrders
import Secp256k1.Proofs.LowForm
import Secp256k1.Proofs.FixedSignatures
import Secp256k1.Proofs.CompactSigning
import Secp256k1.Proofs.DerIntegers
import Secp256k1.Proofs.DerReading
import Secp256k1.Proofs.DerPositions
import Secp256k1.Proofs.DerSignatures
import Secp256k1.Proofs.PointEncodings
import Secp256k1.Proofs.BitStrings
import Secp256k1.Proofs.NonceStandard
import Secp256k1.Proofs.NonceDerivation
import Secp256k1.Proofs.DigestClasses
import Secp256k1.Proofs.SignerRuns
import Secp256k1.Proofs.PointEquality
import Secp256k1.Proofs.KeyPairs
import Secp256k1.Proofs.RecoveryParity
import Secp256k1.Proofs.RecoveryConditions
import Secp256k1.Proofs.CheckedArithmetic
import Secp256k1.Proofs.CheckedPoints
import Secp256k1.Proofs.CheckedNonces
import Secp256k1.Proofs.CheckedSignatures
import Secp256k1.Proofs.CheckedRuns
import Secp256k1.Proofs.Retries
import Secp256k1.Proofs.SigningRetries
import Secp256k1.Proofs.DigestBinding
import Secp256k1.Proofs.NonceSeries
import Secp256k1.Proofs.UniformNonces
import Secp256k1.Proofs.Decompression
import Secp256k1.Proofs.FieldOperations
import Secp256k1.Proofs.NonAdjacency
