import WdmTest.PnpEvent.Lifecycle

/-!
What the output of one callback tells of its notification: the version and size,
both GUIDs, the name as it is printed, and the device object or that it could not
be had. The numbers of a GUID have no mark between them but a dash; they can be
read back because each fills its width.

What `%S` makes of a name is only known for ASCII, so only such names can be told
from what is printed of them.
-/
namespace WdmTest.PnpEvent
open Readback

theorem ofLE_data4_lt (g : Guid) : Bytes.ofLE g.data4.toList < 16 ^ 16 := by
  have hlt := Bytes.ofLE_lt g.data4.toList
  rw [Vector.length_toList] at hlt
  exact hlt

theorem guidText_injective : Function.Injective guidText := by
  have hlt1 : ∀ g : Guid, g.data1.toNat < 16 ^ 8 := fun g => g.data1.toNat_lt
  have hlt2 : ∀ g : Guid, g.data2.toNat < 16 ^ 4 := fun g => g.data2.toNat_lt
  have hlt3 : ∀ g : Guid, g.data3.toNat < 16 ^ 4 := fun g => g.data3.toNat_lt
  have hdata4 := delimits_hexUpper (by decide) ofLE_data4_lt
  have hdata3 := (delimits_hexUpper (by decide) hlt3).append (hdata4.literal "-".toList)
  have hdata2 := (delimits_hexUpper (by decide) hlt2).append (hdata3.literal "-".toList)
  have hdata1 := (delimits_hexUpper (by decide) hlt1).append (hdata2.literal "-".toList)
  intro g h htext
  unfold guidText at htext
  simp only [List.append_assoc] at htext
  obtain ⟨h1, h2, h3, h4⟩ := hdata1.related htext
  rw [Guid.ext_iff]
  refine ⟨UInt32.toNat_inj.mp h1, UInt16.toNat_inj.mp h2, UInt16.toNat_inj.mp h3, ?_⟩
  apply Vector.toList_inj.mp
  apply Bytes.ofLE_injective _ h4
  rw [Vector.length_toList, Vector.length_toList]

/-- The version and the size stand between fixed texts. -/
theorem versionLine_inj {n m : Notification} (h : versionLine n = versionLine m) :
    n.version = m.version ∧ n.size = m.size := by
  have hend : Delimits (fun _ _ => True) fun _ : Notification => "\n".toList := delimits_const _
  have hsize := (hend.decimal (fun n => (n.size.toNat : Int)) '\n' (by decide) (by decide)
    fun _ => ⟨_, rfl⟩).literal ", Size=".toList
  have hversion := (hsize.decimal (fun n => (n.version.toNat : Int)) ',' (by decide) (by decide)
    fun _ => ⟨_, rfl⟩).literal "    Ver=".toList
  unfold versionLine at h
  simp only [List.append_assoc] at h
  obtain ⟨hv, hs, -⟩ := hversion.related (by simpa only [List.append_assoc] using h)
  exact ⟨UInt16.toNat_inj.mp (Int.ofNat_inj.mp hv), UInt16.toNat_inj.mp (Int.ofNat_inj.mp hs)⟩

theorem targetLine_injective : Function.Injective targetLine := by
  intro p q h
  unfold targetLine at h
  have hdigits := List.append_cancel_left (List.append_cancel_right h)
  exact UInt64.toNat_inj.mp (hexUpper_injective 16 hdigits)

def PnpCall.printed : PnpCall → List (List Char)
  | .dbgPrintEx text => [text]
  | .ioGetDeviceObjectPointer _ | .obDereferenceObject _ => []

/-- What a callback prints, in order. -/
def notifyLines (wide : List UInt16 → List Char) (n : Notification) (k : OpenAnswer) :
    List (List Char) :=
  (notifyCallback wide n k).flatMap PnpCall.printed

theorem notifyLines_eq (wide : List UInt16 → List Char) (n : Notification) (k : OpenAnswer) :
    notifyLines wide n k =
      [gotLine, versionLine n, eventLine n, interfaceClassLine n, nameLine wide n] ++
        if ntSuccess k.status then [targetLine k.target] else [] := by
  rw [notifyLines, notifyCallback]
  split <;> rfl

/-- An ASCII name is printed as it is. -/
def PrintsAscii (wide : List UInt16 → List Char) : Prop :=
  ∀ l : List UInt16, (∀ c ∈ l, c < 0x80) → wide l = l.map fun c => Char.ofNat c.toNat

/-- What is printed of an ASCII name tells the name. -/
theorem PrintsAscii.name_inj {wide : List UInt16 → List Char} (hwide : PrintsAscii wide)
    {xs ys : List UInt16} (hxs : ∀ c ∈ xs, c < 0x80) (hys : ∀ c ∈ ys, c < 0x80)
    (h : wide xs = wide ys) : xs = ys := by
  have hcode : ∀ c : UInt16, c < 0x80 → (Char.ofNat c.toNat).toNat = c.toNat := by
    intro c hc
    have hlt : c.toNat < 128 := UInt16.lt_iff_toNat_lt.mp hc
    have hall : ∀ i < 128, (Char.ofNat i).toNat = i := by decide
    exact hall c.toNat hlt
  have hcodes : ∀ l : List UInt16, (∀ c ∈ l, c < 0x80) →
      (wide l).map Char.toNat = l.map UInt16.toNat := by
    intro l hl
    rw [hwide l hl, List.map_map]
    apply List.map_congr_left
    intro c hc
    exact hcode c (hl c hc)
  have hnumbers : xs.map UInt16.toNat = ys.map UInt16.toNat := by
    rw [← hcodes xs hxs, h, hcodes ys hys]
  exact (List.map_inj_right fun _ _ => UInt16.toNat_inj.mp).mp hnumbers

/-- Callbacks that print the same were told the same, of the name as much as is
printed, and had the same answer; of an ASCII name all of it is printed. -/
theorem notifyLines_determine {wide : List UInt16 → List Char} (hwide : PrintsAscii wide)
    {n m : Notification} {k l : OpenAnswer}
    (h : notifyLines wide n k = notifyLines wide m l) :
    n.version = m.version ∧ n.size = m.size ∧ n.event = m.event ∧
      n.interfaceClassGuid = m.interfaceClassGuid ∧
      wide n.name = wide m.name ∧
      ((∀ c ∈ n.name, c < 0x80) → (∀ c ∈ m.name, c < 0x80) → n.name = m.name) ∧
      ntSuccess k.status = ntSuccess l.status ∧
      (ntSuccess k.status = true → k.target = l.target) := by
  rw [notifyLines_eq, notifyLines_eq] at h
  simp only [List.cons_append, List.nil_append, List.cons.injEq, true_and] at h
  obtain ⟨hversion, hevent, hclass, hname, hrest⟩ := h
  obtain ⟨hv, hs⟩ := versionLine_inj hversion
  unfold eventLine at hevent
  unfold interfaceClassLine at hclass
  unfold nameLine at hname
  have hevent' := List.append_cancel_left (List.append_cancel_right hevent)
  have hclass' := List.append_cancel_left (List.append_cancel_right hclass)
  have hname' := List.append_cancel_left (List.append_cancel_right hname)
  refine ⟨hv, hs, guidText_injective hevent', guidText_injective hclass', hname',
    fun hn hm => hwide.name_inj hn hm hname', ?_⟩
  cases hk : ntSuccess k.status with
  | false =>
      cases hl : ntSuccess l.status with
      | false => exact ⟨rfl, nofun⟩
      | true => simp [hk, hl] at hrest
  | true =>
      cases hl : ntSuccess l.status with
      | false => simp [hk, hl] at hrest
      | true =>
          simp only [hk, hl, if_true, List.cons.injEq, and_true] at hrest
          exact ⟨rfl, fun _ => targetLine_injective hrest⟩

/-- What stands behind the terminator of the name is not printed. -/
def arrivalTail : Notification :=
  { arrival with symbolicLinkName := arrival.symbolicLinkName ++ [0, 0x23] }

theorem notifyLines_determine_arrivalTail :
    arrival.version = arrivalTail.version ∧ arrival.size = arrivalTail.size ∧
      arrival.event = arrivalTail.event ∧
      arrival.interfaceClassGuid = arrivalTail.interfaceClassGuid ∧
      ascii arrival.name = ascii arrivalTail.name ∧
      ((∀ c ∈ arrival.name, c < 0x80) → (∀ c ∈ arrivalTail.name, c < 0x80) →
        arrival.name = arrivalTail.name) ∧
      ntSuccess opened.status = ntSuccess opened.status ∧
      (ntSuccess opened.status = true → opened.target = opened.target) := by
  have hname : nameLine ascii arrival = nameLine ascii arrivalTail := rfl
  have hascii : PrintsAscii ascii :=
    fun l hl => List.map_congr_left fun c hc => if_pos (hl c hc)
  refine @notifyLines_determine ascii hascii arrival arrivalTail opened opened ?_
  rw [notifyLines_eq, notifyLines_eq, hname]
  rfl

end WdmTest.PnpEvent
