import WdmTest.DigitalSign.CertChain
import WdmTest.Lib.CString

/-!
What `PrintCertInfo` prints of a chain. The text a chain should give has, for
each certificate in order, its two names and the digits of its digest, as many
bytes of it as the certificate says. The loop takes the number of bytes from the
digest of the file instead, so the two texts are one exactly for chains whose
certificates all have a digest of that size.

Names that do not fit and sizes out of range are the subject of the bounds and
are left aside here.
-/
namespace WdmTest.DigitalSign

def CertPartyName.text (name : CertPartyName) : List Char :=
  (List.range name.nameLen.toInt.toNat).map fun k => Char.ofNat (name.namePtr k).toNat

/-- The first bytes of the digest, two digits each. -/
def CertChainMember.digestText (m : CertChainMember) (size : Nat) : List Char :=
  (m.digestBuffer.toList.take size).flatMap fun b => hexUpper 2 b.toNat

def CertChainMember.namesText (m : CertChainMember) : List Char :=
  "[Roy] Issuer=".toList ++ m.issuerName.text ++ ", SubjectName=".toList ++
    m.subjectName.text ++ "\n".toList ++ "[Roy] digest buffer:".toList

def CertChainMember.memberText (m : CertChainMember) : List Char :=
  m.namesText ++ (m.digestText m.digestSize.toInt.toNat ++ ['\n'])

def CertChainInfoHeader.members (chain : CertChainInfoHeader) : List CertChainMember :=
  (List.range chain.numberOfCertChainMembers.toInt.toNat).map chain.certChainMembers

structure CertPartyName.Printable (name : CertPartyName) : Prop where
  fits : name.Fits
  nulFree : ∀ k < name.nameLen.toInt.toNat, name.namePtr k ≠ 0

structure CertChainMember.Printable (m : CertChainMember) : Prop where
  issuer : m.issuerName.Printable
  subject : m.subjectName.Printable
  digestSize : 0 ≤ m.digestSize.toInt ∧ m.digestSize.toInt ≤ 64

/-- The whole function runs to its end and prints the chain member by member. -/
def PrintsChain (o : CiOutcome) (chain : CertChainInfoHeader) : Prop :=
  (printCertInfo o).completes = true ∧
    (printCertInfo o).output.flatten = (succeedLines o).flatten ++
      (chain.members.flatMap CertChainMember.memberText ++ ['\n'])

/-! ## Names and digits -/

/-- The copied local holds the name, a terminator and nothing else. -/
theorem CertPartyName.Printable.cString_copied {name : CertPartyName} (h : name.Printable) :
    cString name.copied = some name.text := by
  have hlen := copyLength_of_fits h.fits
  obtain ⟨rest, hrest⟩ := Nat.exists_eq_add_of_lt (copyLength_lt_iff.mpr h.fits)
  have hcopied : name.copied = [] ++ ((List.range name.nameLen.toInt.toNat).map name.namePtr ++
      0 :: List.replicate rest 0) := by
    rw [CertPartyName.copied, hrest, hlen, Nat.add_assoc, List.range_add, List.map_append,
      ← List.replicate_succ, List.nil_append]
    refine congr (congrArg _ (List.map_congr_left ?_)) ?_
    · intro k hk
      exact if_pos (List.mem_range.mp hk)
    · rw [List.map_map, List.eq_replicate_iff, List.length_map, List.length_range]
      refine ⟨rfl, ?_⟩
      rw [List.forall_mem_map]
      intro k _
      exact if_neg (Nat.not_lt_of_le (Nat.le_add_right _ k))
  have htext : 0 ∉ (List.range name.nameLen.toInt.toNat).map name.namePtr := by
    intro hmem
    obtain ⟨k, hk, hnul⟩ := List.mem_map.mp hmem
    exact h.nulFree k (List.mem_range.mp hk) hnul
  rw [cString, hcopied, CString.Buffer.takeWhile_terminated List.not_mem_nil htext,
    List.nil_append, List.nil_append, List.map_map, if_pos (by simp)]
  rfl

/-- Each byte gives two digits, neither of them a line end. -/
theorem hexUpper_byte (b : UInt8) :
    (hexUpper 2 b.toNat).length = 2 ∧ '\n' ∉ hexUpper 2 b.toNat := by
  have h : ∀ n < 256, (hexUpper 2 n).length = 2 ∧ '\n' ∉ hexUpper 2 n := by decide +kernel
  exact h _ b.toNat_lt

theorem newline_notMem_digestText (m : CertChainMember) (size : Nat) :
    '\n' ∉ m.digestText size := by
  intro h
  obtain ⟨b, -, hb⟩ := List.mem_flatMap.mp h
  exact (hexUpper_byte b).2 hb

theorem digestText_length (m : CertChainMember) {size : Nat} (h : size ≤ Const.digestBufferSize) :
    (m.digestText size).length = size * 2 := by
  have hdigits : (fun b : UInt8 => (hexUpper 2 b.toNat).length) = fun _ => 2 := by
    funext b
    exact (hexUpper_byte b).1
  rw [CertChainMember.digestText, List.length_flatMap, hdigits, List.map_const',
    List.sum_replicate_nat, List.length_take, Vector.length_toList, Nat.min_eq_left h]

/-- The digits tell the number of bytes. -/
theorem digestText_eq_iff (m : CertChainMember) {size size' : Nat}
    (h : size ≤ Const.digestBufferSize) (h' : size' ≤ Const.digestBufferSize) :
    m.digestText size = m.digestText size' ↔ size = size' := by
  refine ⟨?_, congrArg m.digestText⟩
  intro heq
  have hlen := congrArg List.length heq
  rw [digestText_length m h, digestText_length m h'] at hlen
  omega

/-! ## One member -/

section Member
variable {m : CertChainMember} {digestSize : UInt32}

def memberLines (digestSize : UInt32) (m : CertChainMember) : List (List Char) :=
  ["[Roy] Issuer=".toList ++ m.issuerName.text ++ ", SubjectName=".toList ++
      m.subjectName.text ++ "\n".toList] ++ (["[Roy] digest buffer:".toList] ++
    ((m.digestBuffer.toList.take digestSize.toNat).map (fun b => hexUpper 2 b.toNat) ++
      ["\n".toList]))

theorem memberLines_flatten (digestSize : UInt32) (m : CertChainMember) :
    (memberLines digestSize m).flatten =
      m.namesText ++ (m.digestText digestSize.toNat ++ ['\n']) := by
  have hline : "\n".toList = ['\n'] := rfl
  unfold memberLines CertChainMember.namesText CertChainMember.digestText
  rw [List.flatten_append, List.flatten_append, List.flatten_append, ← List.flatMap_def]
  simp only [List.append_assoc, List.flatten_singleton, hline]

theorem rtlCopyMemory_does (dst : NameLocal) {name : CertPartyName} (h : name.Fits) :
    (rtlCopyMemory dst name).Does (fun _ => True) [] :=
  ⟨rtlCopyMemory_completes dst h, rfl, fun _ _ => trivial⟩

theorem printNames_does (h : m.Printable) :
    (printNames m).Does (fun _ => True)
      ["[Roy] Issuer=".toList ++ m.issuerName.text ++ ", SubjectName=".toList ++
        m.subjectName.text ++ "\n".toList] := by
  have hcopies := (rtlCopyMemory_does .issuer h.issuer.fits).andThen
    ((rtlCopyMemory_does .subject h.subject.fits).andThen
      (Trace.does_silent ["[Roy] Issuer=".toList ++ m.issuerName.text ++
        ", SubjectName=".toList ++ m.subjectName.text ++ "\n".toList]))
  unfold printNames
  rw [h.issuer.cString_copied, h.subject.cString_copied]
  exact hcopies

theorem printDigestByte_does (i : Nat) {j : Nat} {b : UInt8}
    (hb : (m.digestBuffer.toList.take digestSize.toNat)[j]? = some b) :
    (printDigestByte i m j).Does (fun _ => True) [hexUpper 2 b.toNat] := by
  obtain ⟨hj, hget⟩ := List.getElem?_eq_some_iff.mp hb
  rw [List.length_take, Vector.length_toList] at hj
  have hlt : j < Const.digestBufferSize := by omega
  refine ⟨decide_eq_true hlt, ?_, fun _ _ => trivial⟩
  rw [List.getElem_take, Vector.getElem_toList] at hget
  rw [printDigestByte, Vector.getElem?_eq_getElem hlt, hget]
  rfl

theorem printMember_does (h : m.Printable) (hsize : digestSize ≤ 64) (i : Nat) :
    (printMember digestSize i m).Does (fun _ => True) (memberLines digestSize m) := by
  have hlen : (m.digestBuffer.toList.take digestSize.toNat).length = digestSize.toNat := by
    rw [List.length_take, Vector.length_toList]
    exact Nat.min_eq_left (UInt32.le_iff_toNat_le.mp hsize)
  have hdigits : (Trace.seq ((List.range (m.digestBuffer.toList.take digestSize.toNat).length).map
      (printDigestByte i m))).Does (fun _ => True)
      ((m.digestBuffer.toList.take digestSize.toNat).flatMap fun b => [hexUpper 2 b.toNat]) := by
    apply Trace.does_seq_range
    intro j b hb
    exact printDigestByte_does i hb
  rw [hlen, ← List.map_eq_flatMap] at hdigits
  exact (printNames_does h).andThen ((Trace.does_silent _).andThen
    (hdigits.andThen (Trace.does_silent _)))

end Member

/-! ## The whole chain -/

section Chain
variable {o : CiOutcome} {chain : CertChainInfoHeader}

theorem printChain_does {digestSize : UInt32} (hsize : digestSize ≤ 64)
    (hmembers : ∀ m ∈ chain.members, m.Printable) :
    (printChain digestSize chain).Does (fun _ => True)
      (chain.members.flatMap (memberLines digestSize) ++ ["\n".toList]) := by
  have hlen : chain.members.length = chain.numberOfCertChainMembers.toInt.toNat := by
    rw [CertChainInfoHeader.members, List.length_map, List.length_range]
  have hloop : (Trace.seq ((List.range chain.members.length).map fun i =>
      printMember digestSize i (chain.certChainMembers i))).Does (fun _ => True)
      (chain.members.flatMap (memberLines digestSize)) := by
    apply Trace.does_seq_range
    intro i m hm
    obtain ⟨hi, hget⟩ := List.getElem?_eq_some_iff.mp hm
    have hmem : m ∈ chain.members := List.mem_iff_getElem.mpr ⟨i, hi, hget⟩
    simp only [CertChainInfoHeader.members, List.getElem_map, List.getElem_range] at hget
    rw [hget]
    exact printMember_does (hmembers m hmem) hsize i
  rw [hlen] at hloop
  exact hloop.andThen (Trace.does_silent _)

theorem printCertInfo_text (hstatus : ntSuccess o.status = true)
    (hchain : o.signerPolicy.certChain = some chain) (hsize : o.digestSize ≤ 64)
    (hmembers : ∀ m ∈ chain.members, m.Printable) :
    (printCertInfo o).completes = true ∧
      (printCertInfo o).output.flatten = (succeedLines o).flatten ++
        ((chain.members.flatMap fun m =>
          m.namesText ++ (m.digestText o.digestSize.toNat ++ ['\n'])) ++ ['\n']) := by
  have hdoes := (Trace.does_silent (succeedLines o)).andThen (printChain_does hsize hmembers)
  have hline : "\n".toList = ['\n'] := rfl
  have htext : (chain.members.flatMap (memberLines o.digestSize)).flatten =
      chain.members.flatMap fun m =>
        m.namesText ++ (m.digestText o.digestSize.toNat ++ ['\n']) := by
    rw [← List.flatMap_id, List.flatMap_assoc]
    apply List.flatMap_congr
    intro m _
    rw [List.flatMap_id]
    exact memberLines_flatten o.digestSize m
  rw [printCertInfo, if_pos hstatus, hchain]
  refine ⟨hdoes.completes, ?_⟩
  rw [hdoes.output, List.flatten_append, List.flatten_append, List.flatten_singleton, hline,
    htext]

theorem chain_output_iff (hsize : o.digestSize ≤ 64)
    (hmembers : ∀ m ∈ chain.members, m.Printable) :
    (succeedLines o).flatten ++ ((chain.members.flatMap fun m =>
        m.namesText ++ (m.digestText o.digestSize.toNat ++ ['\n'])) ++ ['\n']) =
      (succeedLines o).flatten ++ (chain.members.flatMap CertChainMember.memberText ++ ['\n']) ↔
    ∀ m ∈ chain.members, m.digestSize.toInt = o.digestSize.toNat := by
  have hfile : o.digestSize.toNat ≤ Const.digestBufferSize := UInt32.le_iff_toNat_le.mp hsize
  rw [List.append_cancel_left_eq, List.append_cancel_right_eq]
  unfold CertChainMember.memberText
  rw [Bytes.flatMap_separated_inj (fun m _ => newline_notMem_digestText m _)
    fun m _ => newline_notMem_digestText m _]
  apply forall₂_congr
  intro m hm
  have hrange := (hmembers m hm).digestSize
  have hmember : m.digestSize.toInt.toNat ≤ Const.digestBufferSize := Int.toNat_le.mpr hrange.2
  rw [digestText_eq_iff m hfile hmember]
  omega

/-- The chain is printed faithfully exactly when each certificate's digest has
the size of the file's digest. -/
theorem printsChain_iff (hstatus : ntSuccess o.status = true)
    (hchain : o.signerPolicy.certChain = some chain) (hsize : o.digestSize ≤ 64)
    (hmembers : ∀ m ∈ chain.members, m.Printable) :
    PrintsChain o chain ↔ ∀ m ∈ chain.members, m.digestSize.toInt = o.digestSize.toNat := by
  have htext := printCertInfo_text hstatus hchain hsize hmembers
  rw [PrintsChain, htext.2, and_iff_right htext.1]
  exact chain_output_iff hsize hmembers

end Chain

/-! A file with a SHA-256 digest, signed through a certificate that was itself
signed with SHA-1 and one signed with SHA-256. -/

def shortName (c : UInt8) : CertPartyName := { namePtr := fun _ => c, nameLen := 4 }

def certificate (digestSize : Int32) : CertChainMember where
  digestSize := digestSize
  digestBuffer := Vector.replicate _ 0xA5
  subjectName := shortName 0x53
  issuerName := shortName 0x49

def signedChain (digestSize : Int32) : CertChainInfoHeader where
  certChainMembers := fun i => if i = 0 then certificate digestSize else certificate 32
  numberOfCertChainMembers := 2

def signedThrough (digestSize : Int32) : CiOutcome where
  status := NtStatus.success
  signerPolicy := {
    verificationStatus := NtStatus.success
    certChain := some (signedChain digestSize) }
  digestBuffer := Vector.replicate _ 0xA5
  digestSize := 32
  digestAlgorithm := 0x800C

theorem signedChain_members (digestSize : Int32) :
    (signedChain digestSize).members = [certificate digestSize, certificate 32] := rfl

theorem shortName_printable {c : UInt8} (h : c ≠ 0) : (shortName c).Printable :=
  ⟨⟨(by decide : (0 : Int16) ≤ 4), (by decide : (4 : Int16) ≤ 63)⟩, fun _ _ => h⟩

theorem certificate_printable {digestSize : Int32}
    (h : 0 ≤ digestSize.toInt ∧ digestSize.toInt ≤ 64) : (certificate digestSize).Printable :=
  ⟨shortName_printable (by decide), shortName_printable (by decide), h⟩

theorem signedChain_printable {digestSize : Int32}
    (h : 0 ≤ digestSize.toInt ∧ digestSize.toInt ≤ 64) :
    ∀ m ∈ (signedChain digestSize).members, m.Printable := by
  rw [signedChain_members, List.forall_mem_cons, List.forall_mem_singleton]
  exact ⟨certificate_printable h, certificate_printable (by decide)⟩

theorem printsChain_iff_sameSize :
    (PrintsChain (signedThrough 32) (signedChain 32) ↔
      ∀ m ∈ (signedChain 32).members, m.digestSize.toInt = (signedThrough 32).digestSize.toNat) ∧
      ∀ m ∈ (signedChain 32).members, m.digestSize.toInt = (signedThrough 32).digestSize.toNat := by
  refine ⟨printsChain_iff rfl rfl (by decide) (signedChain_printable (by decide)), ?_⟩
  rw [signedChain_members]
  decide

/-- The SHA-1 digest of 20 bytes is printed with 12 bytes of whatever follows it. -/
theorem mixedChain_not_printed :
    ntSuccess (signedThrough 20).status = true ∧
      (signedThrough 20).signerPolicy.certChain = some (signedChain 20) ∧
      (signedThrough 20).digestSize ≤ 64 ∧ (∀ m ∈ (signedChain 20).members, m.Printable) ∧
      ¬ PrintsChain (signedThrough 20) (signedChain 20) := by
  have hmembers : ∀ m ∈ (signedChain 20).members, m.Printable :=
    signedChain_printable (by decide)
  refine ⟨rfl, rfl, by decide, hmembers, ?_⟩
  intro h
  have htext := (printCertInfo_text (o := signedThrough 20) rfl rfl (by decide) hmembers).2
  rw [h.2] at htext
  have hsizes := (chain_output_iff (o := signedThrough 20) (by decide) hmembers).mp htext.symm
  rw [signedChain_members] at hsizes
  exact absurd hsizes (by decide)

end WdmTest.DigitalSign
