import Mathlib.Data.List.Range
import WdmTest.NumaNode.RelationshipWalk

/-!
The two enumerations of nodes in `DetectBigNumaNode`, compared on a machine whose
processors, groups and nodes are arbitrary. The loop over node numbers stops
below the highest one, and it passes the node number to queries that take a
group number; the relationship walk reports every node.

What the kernel answers is described by the topology only as far as the two
enumerations use it. Group affinities and processor counts of a node's affinity
are whatever they are.
-/
namespace WdmTest.NumaNode

structure NodeReport where
  node : UInt16
  maxCpus : UInt32
  activeCpus : UInt32
  cpuCount : UInt16

def nodeReport (k : KernelAnswers) (i : UInt16) : NodeReport where
  node := i
  maxCpus := k.maximumProcessorCountEx i
  activeCpus := k.activeProcessorCountEx i
  cpuCount := k.nodeActiveAffinityCount i

def NodeReport.lines (r : NodeReport) : List (List Char) :=
  ["[Roy Debug] Logical Nodes[".toList ++ Decimal.ofInt r.node.toNat ++ "] Max CPUs=".toList ++
      Decimal.ofInt r.maxCpus.toInt32.toInt ++ ", Active CPUs=".toList ++
      Decimal.ofInt r.activeCpus.toInt32.toInt ++ "\n".toList,
    "[Roy Debug] node[".toList ++ Decimal.ofInt r.node.toNat ++ "] has ".toList ++
      Decimal.ofInt r.cpuCount.toNat ++ " cpus.\n".toList]

def perNodeReports (k : KernelAnswers) : List NodeReport :=
  (List.range k.highestNodeNumber.toNat).map fun i => nodeReport k (UInt16.ofNat i)

theorem perNodeLoop_eq (k : KernelAnswers) :
    perNodeLoop k = (perNodeReports k).flatMap NodeReport.lines := by
  rw [perNodeLoop, perNodeReports, List.flatMap_map]
  rfl

def walkNodes (buffer : RelationBuffer) (ws : List Walk) : List UInt32 :=
  ws.dropLast.map fun w => UInt32.ofNat (buffer.field w.offset.toNat Layout.nodeNumber 4)

/-! ## The machine -/

structure Processor where
  group : UInt16
  node : UInt16
  active : Bool

structure Topology where
  highestNode : UInt16
  processors : List Processor
  node_le : ∀ p ∈ processors, p.node ≤ highestNode

def Topology.activeOfGroup (t : Topology) (group : UInt16) : Nat :=
  t.processors.countP fun p => p.active && p.group == group

def Topology.maximumOfGroup (t : Topology) (group : UInt16) : Nat :=
  t.processors.countP fun p => p.group == group

def Topology.activeOfNode (t : Topology) (node : UInt16) : Nat :=
  t.processors.countP fun p => p.active && p.node == node

/-- The kernel answers as it documents: counts of processor groups for the two
count queries, as far as the loop makes them, and one record for each of the nodes 0 to
the highest. -/
structure Describes (t : Topology) (k : KernelAnswers) : Prop where
  highest : k.highestNodeNumber = t.highestNode
  active : ∀ g < t.highestNode, (k.activeProcessorCountEx g).toNat = t.activeOfGroup g
  maximum : ∀ g < t.highestNode, (k.maximumProcessorCountEx g).toNat = t.maximumOfGroup g
  status : ntSuccess k.status = true
  records : ∃ rs post, k.buffer.bytes = encodeAll rs ++ post ∧
    k.size.toNat = (encodeAll rs).length ∧
    (rs.map fun r => r.nodeNumber.toNat).Perm (List.range (t.highestNode.toNat + 1))

/-- The loop reports each node once, these are the nodes of the walk, and the
active processors reported for a node are its own. -/
structure EnumerationsAgree (t : Topology) (k : KernelAnswers) : Prop where
  once : ((perNodeReports k).map fun r => r.node.toNat).Perm
    (List.range (t.highestNode.toNat + 1))
  walk : ∃ fuel ws, walk k.buffer fuel (walkStart k.size) = some ws ∧
    ((walkNodes k.buffer ws).map UInt32.toNat).Perm
      ((perNodeReports k).map fun r => r.node.toNat)
  active : ∀ r ∈ perNodeReports k, r.activeCpus.toNat = t.activeOfNode r.node

/-! ## The walk -/

section Walk
variable {buffer : RelationBuffer} {rs : List NumaRecord} {post : List UInt8} {size : UInt32}

theorem Walk.Passed.node {done todo : List NumaRecord} {r : NumaRecord} {w : Walk}
    (h : w.Passed done (r :: todo))
    (hbytes : buffer.bytes = encodeAll done ++ (encodeAll (r :: todo) ++ post)) :
    UInt32.ofNat (buffer.field w.offset.toNat Layout.nodeNumber 4) = r.nodeNumber := by
  rw [h.offset]
  exact field_nodeNumber (hasRecord_of_bytes hbytes)

theorem walkNodes_eq {ws : List Walk} (hbytes : buffer.bytes = encodeAll rs ++ post)
    (hlen : ws.length = rs.length + 1)
    (hall : ∀ k ≤ rs.length, ∃ w, ws[k]? = some w ∧ w.Passed (rs.take k) (rs.drop k)) :
    walkNodes buffer ws = rs.map NumaRecord.nodeNumber := by
  apply List.ext_getElem
  · rw [walkNodes, List.length_map, List.length_dropLast, hlen, List.length_map]
    exact Nat.add_sub_cancel _ _
  · intro k hk hk'
    rw [List.length_map] at hk'
    obtain ⟨w, hw, hpassed⟩ := hall k (Nat.le_of_lt hk')
    have hget : ws[k] = w := (List.getElem?_eq_some_iff.mp hw).2
    simp only [walkNodes, List.getElem_map, List.getElem_dropLast, hget]
    rw [List.drop_eq_getElem_cons hk'] at hpassed
    apply hpassed.node
    rw [← List.drop_eq_getElem_cons hk', ← List.append_assoc, hbytes, encodeAll, encodeAll,
      encodeAll, ← List.flatMap_append, List.take_append_drop]

theorem Describes.walk_nodes {t : Topology} {k : KernelAnswers} (h : Describes t k) :
    ∃ fuel ws, walk k.buffer fuel (walkStart k.size) = some ws ∧
      ((walkNodes k.buffer ws).map UInt32.toNat).Perm (List.range (t.highestNode.toNat + 1)) := by
  obtain ⟨rs, post, hbytes, hsize, hnodes⟩ := h.records
  obtain ⟨ws, hws, hlen, hall, -⟩ := walk_start_passed hbytes hsize (Nat.lt_succ_self rs.length)
  refine ⟨rs.length + 1, ws, hws, ?_⟩
  rw [walkNodes_eq hbytes hlen hall, List.map_map]
  exact hnodes

end Walk

/-! ## The loop over node numbers -/

section PerNode
variable {t : Topology} {k : KernelAnswers}

/-- It stops below the highest node number. -/
theorem perNodeReports_nodes (k : KernelAnswers) :
    ((perNodeReports k).map fun r => r.node.toNat) = List.range k.highestNodeNumber.toNat := by
  have hround : ∀ i ∈ List.range k.highestNodeNumber.toNat,
      ((fun r => r.node.toNat) ∘ fun i => nodeReport k (UInt16.ofNat i)) i = id i := by
    intro i hi
    have hlt := List.mem_range.mp hi
    exact UInt16.toNat_ofNat_of_lt' (Nat.lt_trans hlt k.highestNodeNumber.toNat_lt)
  rw [perNodeReports, List.map_map, List.map_congr_left hround, List.map_id]

/-- Its reports for the nodes it does reach are right exactly where a node has as
many active processors as the group of the same number. -/
theorem Describes.activeCpus_iff (h : Describes t k) {i : UInt16} (hi : i < t.highestNode) :
    (nodeReport k i).activeCpus.toNat = t.activeOfNode i ↔
      t.activeOfGroup i = t.activeOfNode i := by
  rw [nodeReport, h.active i hi]

/-- The walk reports the nodes of the loop and the highest one besides. -/
theorem Describes.walk_nodes_perm (h : Describes t k) :
    ∃ fuel ws, walk k.buffer fuel (walkStart k.size) = some ws ∧
      ((walkNodes k.buffer ws).map UInt32.toNat).Perm
        (t.highestNode.toNat :: (perNodeReports k).map fun r => r.node.toNat) := by
  obtain ⟨fuel, ws, hws, hnodes⟩ := h.walk_nodes
  refine ⟨fuel, ws, hws, hnodes.trans ?_⟩
  rw [perNodeReports_nodes, h.highest, List.range_succ]
  exact List.perm_append_singleton _ _

/-- The highest node is missing on every machine. -/
theorem enumerations_disagree (h : Describes t k) : ¬ EnumerationsAgree t k := by
  intro hagree
  have hlen := hagree.once.length_eq
  rw [perNodeReports_nodes, List.length_range, List.length_range, h.highest] at hlen
  omega

end PerNode

/-! Two nodes whose processors are mixed over two groups. -/

def twoNodesTopology : Topology where
  highestNode := 1
  processors := List.replicate 8 ⟨0, 0, true⟩ ++ List.replicate 8 ⟨0, 1, true⟩ ++
    List.replicate 2 ⟨1, 1, true⟩
  node_le := by decide

def twoNodesAnswers : KernelAnswers where
  activeGroupCount := 2
  highestNodeNumber := 1
  activeProcessorCountEx := fun g => UInt32.ofNat (twoNodesTopology.activeOfGroup g)
  maximumProcessorCountEx := fun g => UInt32.ofNat (twoNodesTopology.maximumOfGroup g)
  nodeActiveAffinityCount := fun i => if i ≤ 1 then 8 else 0
  status := NtStatus.success
  buffer := twoNodesBuffer
  size := 128

theorem twoNodes_describes : Describes twoNodesTopology twoNodesAnswers := by
  have hcount (p : Processor → Bool) : twoNodesTopology.processors.countP p < 2 ^ 32 :=
    Nat.lt_of_le_of_lt List.countP_le_length (by decide)
  refine ⟨rfl, ?_, ?_, rfl, ?_⟩
  · intro g _
    exact UInt32.toNat_ofNat_of_lt' (hcount _)
  · intro g _
    exact UInt32.toNat_ofNat_of_lt' (hcount _)
  · exact ⟨twoNodes, _, rfl, twoNodes_length.symm, List.Perm.refl _⟩

theorem twoNodes_enumerations_disagree : ¬ EnumerationsAgree twoNodesTopology twoNodesAnswers :=
  enumerations_disagree twoNodes_describes

/-- Node 0 is reported with the 16 processors of group 0; it has 8. -/
theorem twoNodes_report_of_group :
    Describes twoNodesTopology twoNodesAnswers ∧
      (nodeReport twoNodesAnswers 0).activeCpus = 16 ∧ twoNodesTopology.activeOfNode 0 = 8 ∧
      ¬ EnumerationsAgree twoNodesTopology twoNodesAnswers := by
  refine ⟨twoNodes_describes, by decide, by decide, ?_⟩
  intro h
  have hactive := h.active (nodeReport twoNodesAnswers 0) List.mem_cons_self
  exact absurd hactive (by decide)

end WdmTest.NumaNode
