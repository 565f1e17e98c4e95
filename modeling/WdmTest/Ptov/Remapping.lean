import Mathlib.Data.List.Nodup
import WdmTest.Lib.Paging
import WdmTest.Ptov.Model

/-!
The addresses of PtovTest: the thread takes the first page frame behind a buffer,
describes the buffer's memory by that frame alone, from offset 0 on, and maps it
again. The page frames behind the virtual pages and the contents of physical
memory are arguments. A page of the mapping without an entry in the descriptor's
allocation, or outside the mapping, shows nothing.

The descriptor is made for one page at offset 0, which is what the driver asks
for. What its memory caching or its release do is not considered.
-/
namespace WdmTest.Ptov
open Paging

namespace Const
def pageSize : Nat := 4096
def sizeofMdl : Nat := 48
def sizeofPfnNumber : Nat := 8
/-- `IOP_FIXED_SIZE_MDL_PFNS`. -/
def fixedSizeMdlPfns : Nat := 17
end Const

/-- `MY_CTX`, without its events. -/
structure MyCtx where
  buffer : UInt64
  bufSize : UInt64

/-- `MDL`, with the entries of the PFN array inside its allocation. -/
structure Mdl where
  byteOffset : Nat
  byteCount : Nat
  allocated : Nat
  pfns : List UInt64

def Mdl.spannedPages (m : Mdl) : Nat := spanPages Const.pageSize m.byteOffset m.byteCount

def Mdl.EntriesFit (m : Mdl) : Prop :=
  Const.sizeofMdl + m.spannedPages * Const.sizeofPfnNumber ≤ m.allocated

/-- The byte seen through a mapping of the descriptor, its byte offset included. -/
def Mdl.mappedByte (memory : UInt64 → Nat → UInt8) (m : Mdl) (k : Nat) : Option UInt8 :=
  if (m.byteOffset + k) / Const.pageSize < m.spannedPages then
    viaFrames Const.pageSize memory m.pfns (m.byteOffset + k)
  else none

/-- None when the described range spans no page. -/
def getFirstPfnFromVirtAddr (frames : Nat → UInt64) (va : UInt64) (vaSize : UInt32) :
    Option UInt64 :=
  (frameList Const.pageSize frames va.toNat vaSize.toNat)[0]?

def createMdlByPfn (vaSize : UInt32) (pfn : UInt64) : Mdl :=
  let pageCount := 1
  let pageCount :=
    if pageCount ≤ Const.fixedSizeMdlPfns then Const.fixedSizeMdlPfns else pageCount
  { byteOffset := 0
    byteCount := vaSize.toNat
    allocated := Const.sizeofMdl + pageCount * Const.sizeofPfnNumber
    pfns := (List.replicate pageCount 0).set 0 pfn }

/-- The descriptor that `ThreadFunction` maps. -/
def remappedMdl (frames : Nat → UInt64) (ctx : MyCtx) : Option Mdl :=
  (getFirstPfnFromVirtAddr frames ctx.buffer ctx.bufSize.toUInt32).map fun pfn =>
    createMdlByPfn ctx.bufSize.toUInt32 pfn

def FramesDistinct (frames : Nat → UInt64) (ctx : MyCtx) : Prop :=
  (frameList Const.pageSize frames ctx.buffer.toNat ctx.bufSize.toNat).Nodup

/-- Through the mapping every byte of the buffer is seen at its place, and the
descriptor has room for the entries of its pages. -/
def RemapsIdentically (frames : Nat → UInt64) (ctx : MyCtx) : Prop :=
  ∃ m, remappedMdl frames ctx = some m ∧ m.EntriesFit ∧
    ∀ (memory : UInt64 → Nat → UInt8), ∀ k < ctx.bufSize.toNat, m.mappedByte memory k =
      some (byteAt Const.pageSize frames memory (ctx.buffer.toNat + k))

/-! ## The descriptor -/

section Descriptor
variable {frames : Nat → UInt64} {ctx : MyCtx} {vaSize : UInt32} {pfn : UInt64}

theorem createMdlByPfn_pfns (vaSize : UInt32) (pfn : UInt64) :
    (createMdlByPfn vaSize pfn).pfns = pfn :: List.replicate 16 0 := rfl

theorem createMdlByPfn_byteCount (vaSize : UInt32) (pfn : UInt64) :
    (createMdlByPfn vaSize pfn).byteCount = vaSize.toNat := rfl

theorem createMdlByPfn_entriesFit (h : vaSize.toNat ≤ Const.pageSize) :
    (createMdlByPfn vaSize pfn).EntriesFit := by
  have hpages : (createMdlByPfn vaSize pfn).spannedPages ≤ 1 := by
    simp only [Mdl.spannedPages, createMdlByPfn, spanPages, Const.pageSize] at h ⊢
    omega
  have hroom : (createMdlByPfn vaSize pfn).allocated = 184 := rfl
  simp only [Mdl.EntriesFit, hroom, Const.sizeofMdl, Const.sizeofPfnNumber]
  omega

theorem mappedByte_of_begins {m : Mdl} {start k : Nat} (memory : UInt64 → Nat → UInt8)
    (hoffset : m.byteOffset = start % Const.pageSize)
    (hbegins : frameList Const.pageSize frames start m.byteCount <+: m.pfns)
    (hk : k < m.byteCount) :
    m.mappedByte memory k = some (byteAt Const.pageSize frames memory (start + k)) := by
  have hpage : (m.byteOffset + k) / Const.pageSize < m.spannedPages :=
    page_lt_spanPages (by decide) m.byteOffset hk
  rw [Mdl.mappedByte, if_pos hpage, hoffset]
  exact viaFrames_of_begins (by decide) hbegins hk

theorem remapsIdentically_of_page (haligned : ctx.buffer.toNat % Const.pageSize = 0)
    (hpos : 1 ≤ ctx.bufSize.toNat) (hsize : ctx.bufSize.toNat ≤ Const.pageSize) :
    RemapsIdentically frames ctx := by
  have hcast : ctx.bufSize.toUInt32.toNat = ctx.bufSize.toNat := by
    rw [UInt64.toNat_toUInt32]
    apply Nat.mod_eq_of_lt
    exact Nat.lt_of_le_of_lt hsize (by decide)
  have hspan : spanPages Const.pageSize 0 ctx.bufSize.toNat = 1 := by
    simp only [spanPages, Const.pageSize] at hsize ⊢
    omega
  have hlist : frameList Const.pageSize frames ctx.buffer.toNat ctx.bufSize.toNat =
      [frames (ctx.buffer.toNat / Const.pageSize)] := by
    rw [frameList, haligned, hspan]
    rfl
  have hmdl : remappedMdl frames ctx = some (createMdlByPfn ctx.bufSize.toUInt32
      (frames (ctx.buffer.toNat / Const.pageSize))) := by
    rw [remappedMdl, getFirstPfnFromVirtAddr, hcast, hlist]
    rfl
  refine ⟨_, hmdl, ?_, ?_⟩
  · apply createMdlByPfn_entriesFit
    rw [hcast]
    exact hsize
  · intro memory k hk
    apply mappedByte_of_begins memory haligned.symm
    · simp only [createMdlByPfn_pfns, createMdlByPfn_byteCount, hcast, hlist]
      exact ⟨_, rfl⟩
    · rw [createMdlByPfn_byteCount, hcast]
      exact hk

/-- The mapping starts where the first page does. -/
theorem aligned_of_remapsIdentically (hpos : 1 ≤ ctx.bufSize.toNat)
    (h : RemapsIdentically frames ctx) : ctx.buffer.toNat % Const.pageSize = 0 := by
  obtain ⟨m, hm, -, hbytes⟩ := h
  obtain ⟨pfn, -, rfl⟩ := Option.map_eq_some_iff.mp hm
  have hfirst := hbytes (fun _ offset => if offset = 0 then 0 else 1) 0 hpos
  by_contra hoffset
  rw [Mdl.mappedByte] at hfirst
  split at hfirst
  · simp [viaFrames, createMdlByPfn, byteAt, hoffset] at hfirst
  · exact Option.some_ne_none _ hfirst.symm

/-- The mapping of a second page shows the frame with the number 0. -/
theorem size_le_of_remapsIdentically
    (hsecond : frames ((ctx.buffer.toNat + Const.pageSize) / Const.pageSize) ≠ 0)
    (h : RemapsIdentically frames ctx) : ctx.bufSize.toNat ≤ Const.pageSize := by
  obtain ⟨m, hm, -, hbytes⟩ := h
  obtain ⟨pfn, -, rfl⟩ := Option.map_eq_some_iff.mp hm
  by_contra hlong
  have hbyte := hbytes (fun frame _ => if frame = 0 then 0 else 1) Const.pageSize
    (Nat.lt_of_not_le hlong)
  have hzero : viaFrames Const.pageSize (fun frame _ => if frame = 0 then (0 : UInt8) else 1)
      (createMdlByPfn ctx.bufSize.toUInt32 pfn).pfns (0 + Const.pageSize) = some 0 := rfl
  rw [Mdl.mappedByte] at hbyte
  split at hbyte
  · rw [byteAt, if_neg hsecond] at hbyte
    have hsame := hzero.symm.trans hbyte
    exact absurd hsame (by decide)
  · exact Option.some_ne_none _ hbyte.symm

end Descriptor

theorem framesDistinct_ofNat (ctx : MyCtx) : FramesDistinct UInt64.ofNat ctx := by
  have hbuffer := ctx.buffer.toNat_lt
  have hsize := ctx.bufSize.toNat_lt
  rw [FramesDistinct, frameList]
  apply List.Nodup.map_on
  · intro i hi j hj heq
    rw [List.mem_range, spanPages, Const.pageSize] at hi hj
    have hnat := congrArg UInt64.toNat heq
    rw [Const.pageSize, UInt64.toNat_ofNat_of_lt' (by simp only [UInt64.size]; omega),
      UInt64.toNat_ofNat_of_lt' (by simp only [UInt64.size]; omega)] at hnat
    omega
  · exact List.nodup_range

theorem nextPage_ne_zero (ctx : MyCtx) :
    UInt64.ofNat ((ctx.buffer.toNat + Const.pageSize) / Const.pageSize) ≠ 0 := by
  have hbuffer := ctx.buffer.toNat_lt
  intro hzero
  have hnat := congrArg UInt64.toNat hzero
  rw [Const.pageSize, UInt64.toNat_ofNat_of_lt' (by simp only [UInt64.size]; omega)] at hnat
  simp only [UInt64.toNat_zero] at hnat
  omega

/-- Whatever frames the pages have, the buffer is seen unchanged exactly when it
starts with a page and is no longer than one. -/
theorem remapping_identity_iff (ctx : MyCtx) (hpos : 1 ≤ ctx.bufSize.toNat) :
    (∀ frames, FramesDistinct frames ctx → RemapsIdentically frames ctx) ↔
      ctx.buffer.toNat % Const.pageSize = 0 ∧ ctx.bufSize.toNat ≤ Const.pageSize := by
  refine ⟨?_, ?_⟩
  · intro h
    have hnumbered := h UInt64.ofNat (framesDistinct_ofNat ctx)
    refine ⟨aligned_of_remapsIdentically hpos hnumbered, ?_⟩
    exact size_le_of_remapsIdentically (nextPage_ne_zero ctx) hnumbered
  · intro h frames _
    exact remapsIdentically_of_page h.1 hpos h.2

def onePage : MyCtx := { buffer := 0x1000, bufSize := 0x1000 }

theorem onePage_remapsIdentically : RemapsIdentically UInt64.ofNat onePage :=
  (remapping_identity_iff onePage (by decide)).mpr (by decide) UInt64.ofNat
    (framesDistinct_ofNat onePage)

/-- One buffer is seen from 16 bytes before its start, the other one with somebody
else's second page. -/
theorem remapping_not_identity :
    (FramesDistinct UInt64.ofNat { buffer := 0x1010, bufSize := 32 } ∧
      ¬ RemapsIdentically UInt64.ofNat { buffer := 0x1010, bufSize := 32 }) ∧
    FramesDistinct UInt64.ofNat { buffer := 0x1000, bufSize := 0x2000 } ∧
      ¬ RemapsIdentically UInt64.ofNat { buffer := 0x1000, bufSize := 0x2000 } := by
  refine ⟨⟨framesDistinct_ofNat _, ?_⟩, framesDistinct_ofNat _, ?_⟩
  · intro h
    exact absurd (aligned_of_remapsIdentically (by decide) h) (by decide)
  · intro h
    exact absurd (size_le_of_remapsIdentically (nextPage_ne_zero _) h) (by decide)

end WdmTest.Ptov
