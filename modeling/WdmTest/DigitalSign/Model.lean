import WdmTest.Kernel
import WdmTest.Lib.Bytes
import WdmTest.Lib.Decimal
import WdmTest.Lib.Trace

/-!
The signature checks of WDMDigitalSignCheckTest. What `CiValidateFileObject`
reports is an argument: its status, the values of its out parameters and the
certificate chain its policy points to. A name is the memory behind its pointer
and the length given for it, which nothing bounds.

Freeing the two policies is left out: nothing reads them afterwards.
-/
namespace WdmTest.DigitalSign

namespace Const
def nameSize : Nat := 64
def digestBufferSize : Nat := 64
def sha1Identifier : Int32 := 0x8004
def sha256Identifier : Int32 := 0x800C
end Const

structure CertPartyName where
  namePtr : Nat → UInt8
  nameLen : Int16

structure CertChainMember where
  digestSize : Int32
  digestBuffer : Vector UInt8 Const.digestBufferSize
  subjectName : CertPartyName
  issuerName : CertPartyName

/-- `CERT_CHAININFO_HEADER`, with the series its pointer starts. -/
structure CertChainInfoHeader where
  certChainMembers : Nat → CertChainMember
  numberOfCertChainMembers : Int32

structure PolicyInfo where
  verificationStatus : NtStatus
  certChain : Option CertChainInfoHeader

/-- What `CiValidateFileObject` returns and writes. -/
structure CiOutcome where
  status : NtStatus
  signerPolicy : PolicyInfo
  digestBuffer : Vector UInt8 Const.digestBufferSize
  digestSize : UInt32
  digestAlgorithm : UInt32

def parseDigestAlgorithmName (algorithmId : Int32) : List Char :=
  if algorithmId = Const.sha1Identifier then "SHA1".toList
  else if algorithmId = Const.sha256Identifier then "SHA256".toList
  else "UNKNOWN".toList

/-! ## Printing the chain -/

inductive NameLocal where
  | issuer
  | subject
deriving DecidableEq, Repr

/-- A copy into one of the two locals, or a read of `DigestBuffer[j]`. -/
inductive Access where
  | copy (dst : NameLocal) (length : UInt64)
  | readDigest (member j : Nat)
deriving DecidableEq, Repr

abbrev PrintTrace := Trace Access (List Char)

/-- The `short` converted to `size_t`. -/
def CertPartyName.copyLength (name : CertPartyName) : UInt64 := name.nameLen.toInt64.toUInt64

/-- The zeroed local after a copy that stays inside it. -/
def CertPartyName.copied (name : CertPartyName) : List UInt8 :=
  (List.range Const.nameSize).map fun k =>
    if k < name.copyLength.toNat then name.namePtr k else 0

/-- What `%s` prints; none when no terminator ends the string in its array. -/
def cString (bytes : List UInt8) : Option (List Char) :=
  if 0 ∈ bytes then some ((bytes.takeWhile (· ≠ 0)).map fun b => Char.ofNat b.toNat) else none

def rtlCopyMemory (dst : NameLocal) (name : CertPartyName) : PrintTrace where
  events := [.copy dst name.copyLength]
  completes := decide (name.copyLength.toNat ≤ Const.nameSize)

def printNames (m : CertChainMember) : PrintTrace :=
  (rtlCopyMemory .issuer m.issuerName).andThen <|
    (rtlCopyMemory .subject m.subjectName).andThen <|
      match cString m.issuerName.copied, cString m.subjectName.copied with
      | some issuer, some subject =>
          { output := ["[Roy] Issuer=".toList ++ issuer ++ ", SubjectName=".toList ++ subject ++
            "\n".toList] }
      | _, _ => { completes := false }

def printDigestByte (i : Nat) (m : CertChainMember) (j : Nat) : PrintTrace where
  events := [.readDigest i j]
  output := (m.digestBuffer[j]?).toList.map fun b => hexUpper 2 b.toNat
  completes := decide (j < Const.digestBufferSize)

/-- One round of the loop over the chain. -/
def printMember (digestSize : UInt32) (i : Nat) (m : CertChainMember) : PrintTrace :=
  (printNames m).andThen <|
    Trace.andThen { output := ["[Roy] digest buffer:".toList] } <|
      (Trace.seq ((List.range digestSize.toNat).map (printDigestByte i m))).andThen
        { output := ["\n".toList] }

def succeedLines (o : CiOutcome) : List (List Char) :=
  ["[Roy] CiValidateFileObject succeed!\n".toList,
    "[Roy] verification status:0x".toList ++
      hexUpper 8 o.signerPolicy.verificationStatus.toUInt32.toNat ++
      ", digest algorithm:0x".toList ++ hexUpper 1 o.digestAlgorithm.toNat ++ "(".toList ++
      parseDigestAlgorithmName o.digestAlgorithm.toInt32 ++ "), digest size:".toList ++
      Decimal.ofInt o.digestSize.toInt32.toInt ++ "\n".toList]

def printChain (digestSize : UInt32) (chain : CertChainInfoHeader) : PrintTrace :=
  (Trace.seq ((List.range chain.numberOfCertChainMembers.toInt.toNat).map fun i =>
    printMember digestSize i (chain.certChainMembers i))).andThen { output := ["\n".toList] }

def printCertInfo (o : CiOutcome) : PrintTrace :=
  if ntSuccess o.status then
    match o.signerPolicy.certChain with
    | some chain => Trace.andThen { output := succeedLines o } (printChain o.digestSize chain)
    | none => { output := succeedLines o }
  else
    { output := ["[Roy] CiValidateFileObject failed => 0x".toList ++
        hexUpper 8 o.status.toUInt32.toNat ++ "\n".toList] }

/-! ## Comparing the digest -/

/-- The number of equal bytes at the start of two blocks of `length` bytes. -/
def rtlCompareMemory (source1 source2 : List UInt8) (length : Nat) : Nat :=
  Bytes.commonPrefixLength (source1.take length) (source2.take length)

def isProcessFileSignatureValid (o : CiOutcome) (algorithm : UInt32) (digest : List UInt8)
    (digestSize : UInt32) : Bool :=
  if ntSuccess o.status then
    o.digestAlgorithm = algorithm && o.digestSize = digestSize &&
      rtlCompareMemory o.digestBuffer.toList digest digestSize.toNat = 0
  else false

end WdmTest.DigitalSign
