import WdmTest.DigitalSign.Model

/-!
What `IsProcessFileSignatureValid` decides. `RtlCompareMemory` returns how many
bytes are equal, not an order, so comparing its result with 0 accepts a digest
that differs in its first byte and rejects the expected one. Where the answer is
right all the same is stated on the inputs alone.
-/
namespace WdmTest.DigitalSign

def CiOutcome.Comparable (o : CiOutcome) (algorithm digestSize : UInt32) : Prop :=
  ntSuccess o.status = true ∧ o.digestAlgorithm = algorithm ∧ o.digestSize = digestSize

/-- What the caller wants to know. -/
def CiOutcome.DigestMatches (o : CiOutcome) (algorithm : UInt32) (digest : List UInt8)
    (digestSize : UInt32) : Prop :=
  o.Comparable algorithm digestSize ∧ o.digestBuffer.toList.take digestSize.toNat = digest

section Decision
variable {o : CiOutcome} {algorithm digestSize : UInt32} {digest : List UInt8}

theorem isProcessFileSignatureValid_iff :
    isProcessFileSignatureValid o algorithm digest digestSize = true ↔
      o.Comparable algorithm digestSize ∧
        rtlCompareMemory o.digestBuffer.toList digest digestSize.toNat = 0 := by
  rw [isProcessFileSignatureValid, CiOutcome.Comparable]
  by_cases hs : ntSuccess o.status = true
  · simp [hs, and_assoc]
  · simp [hs]

theorem head_eq_of_take_eq (o : CiOutcome) (digest : List UInt8) (hpos : 0 < digestSize)
    (h : o.digestBuffer.toList.take digestSize.toNat = digest) :
    o.digestBuffer.toList.head? = digest.head? := by
  have hne : digestSize.toNat ≠ 0 := Nat.ne_of_gt (UInt32.lt_iff_toNat_lt.mp hpos)
  rw [← h, List.head?_take, if_neg hne]

section Compared
variable (hdigest : digest.length = digestSize.toNat) (hsize : digestSize ≤ 64)
include hdigest hsize

theorem take_digestBuffer_length :
    (o.digestBuffer.toList.take digestSize.toNat).length = digest.length := by
  have hle : digestSize.toNat ≤ 64 := UInt32.le_iff_toNat_le.mp hsize
  rw [List.length_take, Vector.length_toList, hdigest]
  exact Nat.min_eq_left hle

theorem rtlCompareMemory_eq_zero_iff (hpos : 0 < digestSize) :
    rtlCompareMemory o.digestBuffer.toList digest digestSize.toNat = 0 ↔
      o.digestBuffer.toList.head? ≠ digest.head? := by
  have hne : digestSize.toNat ≠ 0 := Nat.ne_of_gt (UInt32.lt_iff_toNat_lt.mp hpos)
  have hlen := take_digestBuffer_length (o := o) hdigest hsize
  have hall : digest.take digestSize.toNat = digest :=
    List.take_of_length_le (Nat.le_of_eq hdigest)
  have hnonempty : o.digestBuffer.toList.take digestSize.toNat ≠ [] := by
    intro hnil
    rw [hnil, hdigest] at hlen
    exact hne hlen.symm
  rw [rtlCompareMemory, hall, Bytes.commonPrefixLength_eq_zero_iff hlen, List.head?_take,
    if_neg hne]
  simp only [hnonempty, false_or]

theorem digestMatches_decided_iff :
    (isProcessFileSignatureValid o algorithm digest digestSize = true ↔
        o.DigestMatches algorithm digest digestSize) ↔
      ¬ o.Comparable algorithm digestSize ∨ digestSize = 0 ∨
        (o.digestBuffer.toList.head? = digest.head? ∧
          o.digestBuffer.toList.take digestSize.toNat ≠ digest) := by
  rw [isProcessFileSignatureValid_iff, CiOutcome.DigestMatches]
  by_cases hcomparable : o.Comparable algorithm digestSize
  · simp only [hcomparable, true_and, not_true_eq_false, false_or]
    by_cases hzero : digestSize = 0
    · subst hzero
      have hnil : digest = [] := List.length_eq_zero_iff.mp hdigest
      simp [hnil, rtlCompareMemory, Bytes.commonPrefixLength]
    · have hpos : 0 < digestSize := UInt32.pos_iff_ne_zero.mpr hzero
      rw [rtlCompareMemory_eq_zero_iff hdigest hsize hpos]
      have hhead := head_eq_of_take_eq o digest hpos
      simp only [hzero, false_or]
      constructor
      · intro h
        by_cases heq : o.digestBuffer.toList.take digestSize.toNat = digest
        · exact absurd (hhead heq) (h.mpr heq)
        · exact ⟨Decidable.not_not.mp fun hne => heq (h.mp hne), heq⟩
      · intro h
        exact ⟨fun hne => absurd h.1 hne, fun heq => absurd heq h.2⟩
  · simp only [hcomparable, false_and, not_false_eq_true, true_or]

end Compared
end Decision

/-- A file signed with a SHA-256 digest of one repeated byte. -/
def signedFile (byte : UInt8) : CiOutcome where
  status := NtStatus.success
  signerPolicy := { verificationStatus := NtStatus.success, certChain := none }
  digestBuffer := Vector.replicate _ byte
  digestSize := 32
  digestAlgorithm := 0x800C

theorem digestMatches_decided_sameFirstByte :
    isProcessFileSignatureValid (signedFile 0xA5) 0x800C (0xA5 :: List.replicate 31 0) 32 = true ↔
      (signedFile 0xA5).DigestMatches 0x800C (0xA5 :: List.replicate 31 0) 32 :=
  (digestMatches_decided_iff (by decide) (by decide)).mpr
    (Or.inr (Or.inr ⟨by decide, by decide⟩))

theorem digestMatches_misjudged :
    ((signedFile 0xA5).DigestMatches 0x800C (List.replicate 32 0xA5) 32 ∧
      isProcessFileSignatureValid (signedFile 0xA5) 0x800C (List.replicate 32 0xA5) 32 = false) ∧
    (¬ (signedFile 0xA5).DigestMatches 0x800C (List.replicate 32 0x5A) 32 ∧
      isProcessFileSignatureValid (signedFile 0xA5) 0x800C (List.replicate 32 0x5A) 32 = true) := by
  unfold CiOutcome.DigestMatches CiOutcome.Comparable
  decide

end WdmTest.DigitalSign
