import WdmTest.Lib.Readback
import WdmTest.NumaNode.NodeEnumeration

/-!
What can be read back from the output of `DetectBigNumaNode`. The group masks of a
record are printed without leading zeros and without a count of lines, and the
records follow each other without a mark; still the text determines the counts,
the report on each node number, and the node number, group count and affinities
of each record. The relationship, the size and the reserved bytes of a record are not
printed, so records that differ in these only give one text.
-/
namespace WdmTest.NumaNode
open Readback

attribute [ext] NodeReport

/-- What the walk prints of a record. -/
structure NodeContent where
  nodeNumber : UInt32
  groupCount : UInt16
  groupMasks : List (UInt16 × UInt64)
deriving DecidableEq, Repr

def GroupAffinity.content (a : GroupAffinity) : UInt16 × UInt64 := (a.group, a.mask)

def NumaRecord.content (r : NumaRecord) : NodeContent where
  nodeNumber := r.nodeNumber
  groupCount := r.groupCount
  groupMasks := r.groupMasks.map GroupAffinity.content

/-! ## The lines -/

theorem uInt16_of_toNat {a b : UInt16} (h : (a.toNat : Int) = b.toNat) : a = b :=
  UInt16.toNat_inj.mp (Int.ofNat_inj.mp h)

/-- The two numbers of an affinity, from the tabulator on to the line break that
starts what follows. -/
def affinityText (a : GroupAffinity) : List Char :=
  "\tGroup=".toList ++ (Decimal.ofInt a.group.toNat ++ (", Mask=".toList ++
    (hexUpper 1 a.mask.toNat ++ "\n".toList)))

theorem affinityText_delimits :
    Delimits (fun a b => a.content = b.content) affinityText := by
  have hend : Delimits (fun _ _ => True) fun _ : GroupAffinity => "\n".toList := delimits_const _
  have hmask := (hend.field (f := fun a => hexUpper 1 a.mask.toNat) '\n'
    (fun a => notMem_hexUpper (by decide)) (fun _ => ⟨_, rfl⟩)).literal ", Mask=".toList
  have hgroup := (hmask.decimal (fun a => (a.group.toNat : Int)) ',' (by decide) (by decide)
    fun _ => ⟨_, rfl⟩).literal "\tGroup=".toList
  refine hgroup.mono ?_
  rintro a b ⟨hgroup, hmask, -⟩
  exact Prod.ext (uInt16_of_toNat hgroup) (UInt64.toNat_inj.mp (hexUpper_injective 1 hmask))

/-- Between the head of a record and its last line break, the line breaks in front
of the affinities are those behind them. -/
theorem masks_shift (as : List GroupAffinity) :
    (as.flatMap fun a => maskLine a.group a.mask) ++ "\n".toList =
      "\n".toList ++ as.flatMap affinityText := by
  induction as with
  | nil => rfl
  | cons a as ih =>
      have hline : maskLine a.group a.mask ++ "\n".toList = "\n".toList ++ affinityText a := by
        have hbreak : "\n\tGroup=".toList = "\n".toList ++ "\tGroup=".toList := rfl
        unfold maskLine affinityText
        rw [hbreak]
        simp only [List.append_assoc]
      rw [List.flatMap_cons, List.append_assoc, ih, ← List.append_assoc, hline,
        List.flatMap_cons, List.append_assoc]

theorem head_delimits :
    Delimits (fun r s => r.nodeNumber = s.nodeNumber ∧ r.groupCount = s.groupCount)
      fun r : NumaRecord => nodeLine r.nodeNumber r.groupCount := by
  have hend : Delimits (fun _ _ => True) fun _ : NumaRecord => ") ".toList := delimits_const _
  have hcount := (hend.decimal (fun r => (r.groupCount.toNat : Int)) ')' (by decide) (by decide)
    fun _ => ⟨_, rfl⟩).literal ") GroupCount(".toList
  have hnode := (hcount.decimal (fun r => r.nodeNumber.toInt32.toInt) ')' (by decide) (by decide)
    fun _ => ⟨_, rfl⟩).literal "Node(".toList
  intro r s p q heq
  obtain ⟨⟨hnumber, hgroups, -⟩, hpq⟩ : _ ∧ p = q := by
    apply hnode r s p q
    unfold nodeLine at heq
    simp only [List.append_assoc] at heq ⊢
    exact heq
  exact ⟨⟨uInt32_of_toInt hnumber, uInt16_of_toNat hgroups⟩, hpq⟩

theorem recordLines_flatten (r : NumaRecord) :
    (recordLines r).flatten = "[Roy Debug] NumaNode Relation=> ".toList ++
      (nodeLine r.nodeNumber r.groupCount ++ ("\n".toList ++ r.groupMasks.flatMap affinityText)) := by
  unfold recordLines
  rw [List.flatten_append, List.flatten_append, List.flatten_cons, List.flatten_singleton,
    List.flatten_singleton, ← List.flatMap_def, masks_shift, List.append_assoc]

theorem recordLines_delimits :
    Delimits (fun r s => r.content = s.content) fun r => (recordLines r).flatten := by
  intro r s p q heq
  simp only [recordLines_flatten, List.append_assoc, List.append_cancel_left_eq] at heq
  obtain ⟨⟨hnode, hcount⟩, hrest⟩ := head_delimits r s _ _ heq
  have hlen : r.groupMasks.length = s.groupMasks.length := by
    rw [r.masks_length, s.masks_length, hcount]
  obtain ⟨hmasks, hpq⟩ := affinityText_delimits.forall₂_of_length hlen
    (List.append_cancel_left hrest)
  refine ⟨?_, hpq⟩
  change r.content = s.content
  rw [NumaRecord.content, NumaRecord.content, hnode, hcount, map_eq_of_forall₂ hmasks]

theorem recordLines_ne_nil (r : NumaRecord) : (recordLines r).flatten ≠ [] := by
  rw [recordLines_flatten]
  exact List.append_ne_nil_of_left_ne_nil (by decide) _

theorem nodeReport_delimits : Delimits Eq fun r : NodeReport => r.lines.flatten := by
  have hend : Delimits (fun _ _ => True) fun _ : NodeReport => " cpus.\n".toList :=
    delimits_const _
  have hcount := (hend.decimal (fun r => (r.cpuCount.toNat : Int)) ' ' (by decide) (by decide)
    fun _ => ⟨_, rfl⟩).literal "] has ".toList
  have hagain := (hcount.decimal (fun r => (r.node.toNat : Int)) ']' (by decide) (by decide)
    fun _ => ⟨_, rfl⟩).literal "\n[Roy Debug] node[".toList
  have hactive := (hagain.decimal (fun r => r.activeCpus.toInt32.toInt) '\n' (by decide)
    (by decide) fun _ => ⟨_, rfl⟩).literal ", Active CPUs=".toList
  have hmax := (hactive.decimal (fun r => r.maxCpus.toInt32.toInt) ',' (by decide) (by decide)
    fun _ => ⟨_, rfl⟩).literal "] Max CPUs=".toList
  have hnode := (hmax.decimal (fun r => (r.node.toNat : Int)) ']' (by decide) (by decide)
    fun _ => ⟨_, rfl⟩).literal "[Roy Debug] Logical Nodes[".toList
  intro r s p q heq
  obtain ⟨⟨hn, hm, ha, -, hc, -⟩, hpq⟩ : _ ∧ p = q := by
    have hbreak : "\n[Roy Debug] node[".toList = "\n".toList ++ "[Roy Debug] node[".toList := rfl
    apply hnode r s p q
    unfold NodeReport.lines at heq
    rw [hbreak]
    simp only [List.flatten_cons, List.flatten_nil, List.append_nil, List.append_assoc] at heq ⊢
    exact heq
  refine ⟨?_, hpq⟩
  rw [NodeReport.ext_iff]
  exact ⟨uInt16_of_toNat hn, uInt32_of_toInt hm, uInt32_of_toInt ha, uInt16_of_toNat hc⟩

theorem summaryLine_delimits :
    Delimits (fun k l => k.highestNodeNumber = l.highestNodeNumber ∧
      k.activeGroupCount = l.activeGroupCount) summaryLine := by
  have hend : Delimits (fun _ _ => True) fun _ : KernelAnswers => "\n".toList := delimits_const _
  have hactive := (hend.decimal (fun k => (k.activeGroupCount.toNat : Int)) '\n' (by decide)
    (by decide) fun _ => ⟨_, rfl⟩).literal ", Active Logical Nodes=".toList
  have hmax := (hactive.decimal (fun k => (k.highestNodeNumber.toNat : Int)) ',' (by decide)
    (by decide) fun _ => ⟨_, rfl⟩).literal "[Roy Debug] Max Logical Nodes=".toList
  intro k l p q heq
  obtain ⟨⟨hhighest, hgroups, -⟩, hpq⟩ : _ ∧ p = q := by
    apply hmax k l p q
    unfold summaryLine at heq
    simp only [List.append_assoc] at heq ⊢
    exact heq
  exact ⟨⟨uInt16_of_toNat hhighest, uInt16_of_toNat hgroups⟩, hpq⟩

/-! ## The whole output -/

/-- A machine that answers the relationship query with these records. -/
structure Answers (k : KernelAnswers) (rs : List NumaRecord) : Prop where
  status : ntSuccess k.status = true
  bytes : ∃ post, k.buffer.bytes = encodeAll rs ++ post
  size : k.size.toNat = (encodeAll rs).length

def machineText (k : KernelAnswers) (rs : List NumaRecord) : List Char :=
  summaryLine k ++ ((perNodeReports k).flatMap (fun r => r.lines.flatten) ++
    rs.flatMap fun r => (recordLines r).flatten)

theorem machineText_determines {k l : KernelAnswers} {rs qs : List NumaRecord}
    (htext : machineText k rs = machineText l qs) :
    k.activeGroupCount = l.activeGroupCount ∧ perNodeReports k = perNodeReports l ∧
      rs.map NumaRecord.content = qs.map NumaRecord.content := by
  obtain ⟨⟨hhighest, hgroups⟩, hrest⟩ := summaryLine_delimits k l _ _ htext
  have hlen : (perNodeReports k).length = (perNodeReports l).length := by
    rw [perNodeReports, perNodeReports, List.length_map, List.length_map, hhighest]
  obtain ⟨hreports, hwalk⟩ := nodeReport_delimits.forall₂_of_length hlen hrest
  rw [List.forall₂_eq_eq_eq] at hreports
  exact ⟨hgroups, hreports,
    map_eq_of_forall₂ (recordLines_delimits.forall₂_of_flatMap_eq recordLines_ne_nil hwalk)⟩

theorem Answers.text {k : KernelAnswers} {rs : List NumaRecord} {fuel : Nat} {t : WalkTrace}
    (h : Answers k rs) (hfuel : rs.length < fuel) (ht : detectBigNumaNode fuel k = some t) :
    t.output.flatten = machineText k rs := by
  obtain ⟨post, hbytes⟩ := h.bytes
  obtain ⟨u, hu, -, houtput⟩ := detectBigNumaNode_prints h.status hbytes h.size hfuel
  cases ht.symm.trans hu
  rw [houtput, List.cons_append, List.flatten_cons, List.flatten_append, perNodeLoop_eq,
    flatten_flatMap, flatten_flatMap, machineText]

/-- Machines with the same output agree in the active group count, the reports on the
node numbers and what is printed of each record. -/
theorem output_determines {k l : KernelAnswers} {rs qs : List NumaRecord} {m n : Nat}
    {t u : WalkTrace} (hk : Answers k rs) (hm : rs.length < m)
    (ht : detectBigNumaNode m k = some t) (hl : Answers l qs) (hn : qs.length < n)
    (hu : detectBigNumaNode n l = some u) (htext : t.output.flatten = u.output.flatten) :
    k.activeGroupCount = l.activeGroupCount ∧ perNodeReports k = perNodeReports l ∧
      rs.map NumaRecord.content = qs.map NumaRecord.content := by
  rw [hk.text hm ht, hl.text hn hu] at htext
  exact machineText_determines htext

/-- The nodes of `twoNodes` with another relationship and other reserved bytes. -/
def twoNodesReserved : List NumaRecord :=
  twoNodes.map fun r => { r with relationship := 3, reserved := Vector.replicate 18 0xA5 }

theorem twoNodesReserved_length : (encodeAll twoNodesReserved).length = 128 := by
  rw [encodeAll_length]
  rfl

def twoNodesReservedAnswers : KernelAnswers :=
  { twoNodesAnswers with
    buffer := {
      bytes := encodeAll twoNodesReserved ++ List.replicate (Const.bufferSize - 128) 0
      size_eq := by
        rw [List.length_append, List.length_replicate, twoNodesReserved_length]
        exact Nat.add_sub_cancel' (by decide) } }

theorem output_determines_twoNodes :
    perNodeReports twoNodesAnswers = perNodeReports twoNodesReservedAnswers ∧
      twoNodes.map NumaRecord.content = twoNodesReserved.map NumaRecord.content := by
  have hk : Answers twoNodesAnswers twoNodes := ⟨rfl, ⟨_, rfl⟩, twoNodes_length.symm⟩
  have hl : Answers twoNodesReservedAnswers twoNodesReserved :=
    ⟨rfl, ⟨_, rfl⟩, twoNodesReserved_length.symm⟩
  obtain ⟨t, ht, -, htext⟩ := detectBigNumaNode_prints hk.status rfl hk.size
    (Nat.lt_succ_self _)
  obtain ⟨u, hu, -, hutext⟩ := detectBigNumaNode_prints hl.status rfl hl.size
    (Nat.lt_succ_self _)
  refine (output_determines hk (Nat.lt_succ_self _) ht hl (Nat.lt_succ_self _) hu ?_).2
  rw [htext, hutext]
  rfl

end WdmTest.NumaNode
