import WdmTest.DigitalSign.Model

/-!
The bounds of the walk over the certificate chain. Names come with a signed
length that nothing checks; the walk stays inside its locals exactly for chains
whose names leave room for the terminator. The digest of a member is read with
the size reported for the file, so its bound rests on that size alone.
-/
namespace WdmTest.DigitalSign

/-- A copy leaves room for the terminator; a read stays in the digest buffer. -/
def Access.InBounds : Access → Prop
  | .copy _ length => length.toNat < Const.nameSize
  | .readDigest _ j => j < Const.digestBufferSize

instance : DecidablePred Access.InBounds
  | .copy _ length => inferInstanceAs (Decidable (length.toNat < Const.nameSize))
  | .readDigest _ j => inferInstanceAs (Decidable (j < Const.digestBufferSize))

def CertPartyName.Fits (name : CertPartyName) : Prop := 0 ≤ name.nameLen ∧ name.nameLen ≤ 63

def CertChainMember.NamesFit (m : CertChainMember) : Prop :=
  m.issuerName.Fits ∧ m.subjectName.Fits

def CiOutcome.NamesFit (o : CiOutcome) : Prop :=
  ntSuccess o.status = true → ∀ chain, o.signerPolicy.certChain = some chain →
    ∀ i < chain.numberOfCertChainMembers.toInt.toNat, (chain.certChainMembers i).NamesFit

section Names
variable {name : CertPartyName} {m : CertChainMember}

/-- A negative length becomes a huge one. -/
theorem copyLength_toNat (name : CertPartyName) :
    (name.copyLength.toNat : Int) =
      if 0 ≤ name.nameLen.toInt then name.nameLen.toInt
      else name.nameLen.toInt + 18446744073709551616 := by
  have hext : name.nameLen.toInt64.toInt = name.nameLen.toInt := Int16.toInt_toInt64 _
  have hcond := BitVec.toInt_eq_toNat_cond name.nameLen.toInt64.toBitVec
  have hword := name.nameLen.toInt64.toUInt64.toNat_lt
  rw [Int64.toInt_toBitVec, hext, Int64.toNat_toBitVec] at hcond
  rw [CertPartyName.copyLength]
  split at hcond <;> split <;> omega

theorem CertPartyName.fits_iff :
    name.Fits ↔ 0 ≤ name.nameLen.toInt ∧ name.nameLen.toInt ≤ 63 := by
  rw [CertPartyName.Fits, Int16.le_iff_toInt_le, Int16.le_iff_toInt_le]
  exact Iff.rfl

theorem copyLength_lt_iff : name.copyLength.toNat < Const.nameSize ↔ name.Fits := by
  have hcast := copyLength_toNat name
  have hlow := name.nameLen.le_toInt
  rw [CertPartyName.fits_iff, Const.nameSize]
  split at hcast <;> omega

theorem copyLength_of_fits (h : name.Fits) :
    name.copyLength.toNat = name.nameLen.toInt.toNat := by
  have hcast := copyLength_toNat name
  rw [if_pos (CertPartyName.fits_iff.mp h).1] at hcast
  omega

theorem rtlCopyMemory_all_iff (dst : NameLocal) :
    (rtlCopyMemory dst name).All Access.InBounds ↔ name.Fits := by
  rw [← copyLength_lt_iff]
  simp [rtlCopyMemory, Trace.All, Access.InBounds]

theorem rtlCopyMemory_completes (dst : NameLocal) (h : name.Fits) :
    (rtlCopyMemory dst name).completes = true :=
  decide_eq_true (Nat.le_of_lt (copyLength_lt_iff.mpr h))

theorem cString_copied (h : name.Fits) : ∃ text, cString name.copied = some text := by
  have hlen := copyLength_lt_iff.mpr h
  have hnul : 0 ∈ name.copied := by
    refine List.mem_map.mpr ⟨name.copyLength.toNat, List.mem_range.mpr hlen, ?_⟩
    rw [if_neg (Nat.lt_irrefl _)]
  exact ⟨_, by rw [cString, if_pos hnul]⟩

theorem printNames_all_iff : (printNames m).All Access.InBounds ↔ m.NamesFit := by
  unfold printNames
  rw [Trace.all_andThen_iff, Trace.all_andThen_iff, rtlCopyMemory_all_iff, rtlCopyMemory_all_iff]
  · simp only [CertChainMember.NamesFit, and_congr_right_iff, and_iff_left_iff_imp]
    intro _ _
    split <;> exact Trace.all_silent _ _
  · intro h
    exact rtlCopyMemory_completes _ ((rtlCopyMemory_all_iff _).mp h)
  · intro h
    exact rtlCopyMemory_completes _ ((rtlCopyMemory_all_iff _).mp h)

theorem printNames_completes (h : m.NamesFit) : (printNames m).completes = true := by
  obtain ⟨issuer, hissuer⟩ := cString_copied h.1
  obtain ⟨subject, hsubject⟩ := cString_copied h.2
  unfold printNames
  simp only [Trace.completes_andThen, rtlCopyMemory_completes _ h.1,
    rtlCopyMemory_completes _ h.2, hissuer, hsubject, Bool.and_true]

end Names

section Members
variable {digestSize : UInt32} (hsize : digestSize ≤ 64)
include hsize

/-- The loop over the digest stays in the buffer because the size of the file's
digest does. -/
theorem printDigest_good (i : Nat) (m : CertChainMember) :
    ∀ t ∈ (List.range digestSize.toNat).map (printDigestByte i m),
      t.All Access.InBounds ∧ t.completes = true := by
  have hle : digestSize.toNat ≤ 64 := UInt32.le_iff_toNat_le.mp hsize
  intro t ht
  obtain ⟨j, hj, rfl⟩ := List.mem_map.mp ht
  have hlt : j < Const.digestBufferSize := Nat.lt_of_lt_of_le (List.mem_range.mp hj) hle
  refine ⟨?_, decide_eq_true hlt⟩
  intro e he
  rw [List.mem_singleton.mp he]
  exact hlt

theorem printMember_all_iff (i : Nat) (m : CertChainMember) :
    (printMember digestSize i m).All Access.InBounds ↔ m.NamesFit := by
  have hgood := printDigest_good hsize i m
  have hdigest := (Trace.all_seq_iff fun t ht _ => (hgood t ht).2).mpr fun t ht => (hgood t ht).1
  have hends := Trace.completes_seq fun t ht => (hgood t ht).2
  unfold printMember
  rw [Trace.all_andThen_iff fun h => printNames_completes (printNames_all_iff.mp h),
    Trace.all_andThen_iff fun _ => rfl, Trace.all_andThen_iff fun _ => hends, printNames_all_iff]
  simp only [Trace.all_silent, hdigest, and_true]

theorem printMember_completes (i : Nat) {m : CertChainMember} (h : m.NamesFit) :
    (printMember digestSize i m).completes = true := by
  unfold printMember
  simp [printNames_completes h, Trace.completes_seq fun t ht => (printDigest_good hsize i m t ht).2]

theorem printChain_all_iff (chain : CertChainInfoHeader) :
    (printChain digestSize chain).All Access.InBounds ↔
      ∀ i < chain.numberOfCertChainMembers.toInt.toNat, (chain.certChainMembers i).NamesFit := by
  have hrounds : ∀ t ∈ (List.range chain.numberOfCertChainMembers.toInt.toNat).map fun i =>
      printMember digestSize i (chain.certChainMembers i),
      t.All Access.InBounds → t.completes = true := by
    intro t ht hall
    obtain ⟨i, -, rfl⟩ := List.mem_map.mp ht
    exact printMember_completes hsize i ((printMember_all_iff hsize i _).mp hall)
  unfold printChain
  rw [Trace.all_andThen_iff (Trace.completes_seq_of_all hrounds), Trace.all_seq_iff hrounds]
  simp only [List.forall_mem_map, List.mem_range, printMember_all_iff hsize, Trace.all_silent,
    and_true]

end Members

/-- A chain of one SHA-256 certificate whose issuer name has the given length. -/
def singleMember (issuerLen : Int16) : CiOutcome where
  status := NtStatus.success
  signerPolicy := {
    verificationStatus := NtStatus.success
    certChain := some {
      certChainMembers := fun _ => {
        digestSize := 32
        digestBuffer := Vector.replicate _ 0xA5
        subjectName := { namePtr := fun _ => 0x53, nameLen := 20 }
        issuerName := { namePtr := fun _ => 0x49, nameLen := issuerLen } }
      numberOfCertChainMembers := 1 } }
  digestBuffer := Vector.replicate _ 0xA5
  digestSize := 32
  digestAlgorithm := 0x800C

theorem walk_inBounds_iff {o : CiOutcome} (hsize : o.digestSize ≤ 64) :
    (printCertInfo o).All Access.InBounds ↔ o.NamesFit := by
  unfold printCertInfo
  by_cases hs : ntSuccess o.status = true
  · rw [if_pos hs]
    cases hchain : o.signerPolicy.certChain with
    | none => simp [CiOutcome.NamesFit, hchain]
    | some chain =>
        rw [Trace.all_andThen_iff fun _ => rfl, printChain_all_iff hsize]
        simp [CiOutcome.NamesFit, hchain, hs]
  · simp [CiOutcome.NamesFit, hs]

theorem walk_inBounds_shortNames : (printCertInfo (singleMember 63)).All Access.InBounds := by
  have hissuer : CertPartyName.Fits { namePtr := fun _ => 0x49, nameLen := 63 } := by
    constructor <;> decide
  have hsubject : CertPartyName.Fits { namePtr := fun _ => 0x53, nameLen := 20 } := by
    constructor <;> decide
  refine (walk_inBounds_iff (by decide)).mpr ?_
  intro _ chain hchain i _
  cases hchain
  exact ⟨hissuer, hsubject⟩

theorem walk_overruns :
    (ntSuccess (singleMember 100).status = true ∧ (singleMember 100).digestSize ≤ 64 ∧
      ¬ (printCertInfo (singleMember 100)).All Access.InBounds) ∧
    ¬ (printCertInfo (singleMember (-1))).All Access.InBounds := by
  decide

end WdmTest.DigitalSign
