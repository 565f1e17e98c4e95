import WdmTest.Lib.Readback
import WdmTest.MultiTimer.Printout

/-!
What can be read back from the printout of MultiTimerTest. The logs are printed
one behind the other without lengths, and a line shows three numbers of varying
width; still the text determines the timer resolutions, the readings with which each
timer was registered and the readings of each of its executions, in order. Nothing a
timer logged is lost in the format.
-/
namespace WdmTest.MultiTimer
open Readback Transition

/-- The text of a reading together with the timestamp before it. -/
def entryLine (e : Int64 × CounterReading) : List Char := logLine e.1 e.2.timestamp e.2.freq

def logEntries (last : Int64) : List CounterReading → List (Int64 × CounterReading)
  | [] => []
  | r :: rs => (last, r) :: logEntries r.timestamp rs

theorem logEntries_snd (last : Int64) (rs : List CounterReading) :
    (logEntries last rs).map Prod.snd = rs := by
  induction rs generalizing last with
  | nil => rfl
  | cons r rs ih => rw [logEntries, List.map_cons, ih]

theorem flatten_logLines (last : Int64) (rs : List CounterReading) :
    (logLines last rs).flatten = (logEntries last rs).flatMap entryLine := by
  induction rs generalizing last with
  | nil => rfl
  | cons r rs ih => rw [logLines, logEntries, List.flatten_cons, List.flatMap_cons, ih, entryLine]

theorem entryLine_delimits : Delimits Eq entryLine := by
  have hend : Delimits (fun _ _ => True) fun _ : Int64 × CounterReading => ")\n".toList :=
    delimits_const _
  have hfreq := (hend.decimal (fun e => e.2.freq.toInt) ')' (by decide) (by decide)
    fun _ => ⟨_, rfl⟩).literal "), freq(".toList
  have hcurrent := (hfreq.decimal (fun e => e.2.timestamp.toInt) ')' (by decide) (by decide)
    fun _ => ⟨_, rfl⟩).literal ") -> current(".toList
  have hlast := (hcurrent.decimal (fun e => e.1.toInt) ')' (by decide) (by decide)
    fun _ => ⟨_, rfl⟩).literal "[PerformanceCounter] last(".toList
  intro e e' p q heq
  obtain ⟨⟨hl, hc, hf, -⟩, hpq⟩ : _ ∧ p = q := by
    apply hlast e e' p q
    unfold entryLine logLine at heq
    simp only [List.append_assoc] at heq ⊢
    exact heq
  refine ⟨?_, hpq⟩
  rw [Prod.ext_iff, CounterReading.ext_iff]
  exact ⟨Int64.toInt_inj.mp hl, Int64.toInt_inj.mp hc, Int64.toInt_inj.mp hf⟩

theorem regLine_delimits : Delimits Eq fun r : CounterReading => regLine r.timestamp r.freq := by
  have hend : Delimits (fun _ _ => True) fun _ : CounterReading => ")\n".toList :=
    delimits_const _
  have hfreq := (hend.decimal (fun r => r.freq.toInt) ')' (by decide) (by decide)
    fun _ => ⟨_, rfl⟩).literal "), freq(".toList
  have hcurrent := (hfreq.decimal (fun r => r.timestamp.toInt) ')' (by decide) (by decide)
    fun _ => ⟨_, rfl⟩).literal "[RegCtx] current(".toList
  intro r r' p q heq
  obtain ⟨⟨hc, hf, -⟩, hpq⟩ : _ ∧ p = q := by
    apply hcurrent r r' p q
    unfold regLine at heq
    simp only [List.append_assoc] at heq ⊢
    exact heq
  refine ⟨?_, hpq⟩
  rw [CounterReading.ext_iff]
  exact ⟨Int64.toInt_inj.mp hc, Int64.toInt_inj.mp hf⟩

/-- Lines start with a bracket, what separates the logs with a line break. -/
theorem lines_apart {α : Type*} {f : α → List Char} (h : ∀ a, ∃ l, f a = '[' :: l) :
    Apart f "\n\n".toList := by
  intro a p q heq
  obtain ⟨l, hl⟩ := h a
  rw [hl] at heq
  exact absurd (List.cons.inj heq).1 (by decide)

theorem regText_delimits : Delimits Eq fun rs => regText rs ++ "\n\n".toList := by
  have hlines := regLine_delimits.sequence (lines_apart fun _ => ⟨_, rfl⟩)
  exact hlines.mono fun _ _ h => List.forall₂_eq_eq_eq ▸ h

theorem logText_delimits :
    Delimits Eq fun rs => (logLines 0 rs).flatten ++ "\n\n".toList := by
  have hlines := (entryLine_delimits.sequence (lines_apart fun _ => ⟨_, rfl⟩)).comp (logEntries 0)
  simp only [← flatten_logLines, List.forall₂_eq_eq_eq] at hlines
  refine hlines.mono ?_
  intro rs qs h
  rw [← logEntries_snd 0 rs, h, logEntries_snd]

/-- The resolutions that the first line shows. -/
def TimerResolution.shown (res : TimerResolution) : UInt32 × UInt32 × UInt32 :=
  (res.maxt, res.mint, res.curt)

theorem resolutionLine_delimits :
    Delimits (fun res res' => res.shown = res'.shown) resolutionLine := by
  have hend : Delimits (fun _ _ => True) fun _ : TimerResolution => ")\n".toList :=
    delimits_const _
  have hcurt := (hend.decimal (fun res => res.curt.toInt32.toInt) ')' (by decide) (by decide)
    fun _ => ⟨_, rfl⟩).literal "), current(".toList
  have hmint := (hcurt.decimal (fun res => res.mint.toInt32.toInt) ')' (by decide) (by decide)
    fun _ => ⟨_, rfl⟩).literal "), min(".toList
  have hmaxt := (hmint.decimal (fun res => res.maxt.toInt32.toInt) ')' (by decide) (by decide)
    fun _ => ⟨_, rfl⟩).literal "[TimerResolution]==> max(".toList
  refine hmaxt.mono ?_
  rintro res res' ⟨hx, hn, hc, -⟩
  rw [TimerResolution.shown, uInt32_of_toInt hx, uInt32_of_toInt hn, uInt32_of_toInt hc]
  rfl

/-- What `DeInitDPC` prints for one timer. -/
def timerText (i : Nat) (rs : List CounterReading) : List Char :=
  ("[Timer-".toList ++ Decimal.ofInt (i : Int) ++ "]==>\n".toList) ++
    ((logLines 0 rs).flatten ++ "\n\n".toList)

theorem flatten_printout (n : Nat) (res : TimerResolution) (regs : List CounterReading)
    (rs : Nat → List CounterReading) :
    (printout n res regs rs).flatten = resolutionLine res ++ ((regText regs ++ "\n\n".toList) ++
      (List.range n).flatMap fun i => timerText i (rs i)) := by
  unfold printout
  rw [List.flatten_append, flatten_flatMap, List.flatten_cons, List.flatten_cons,
    List.flatten_singleton, List.append_assoc]
  refine congrArg (fun text => _ ++ (_ ++ text)) (List.flatMap_congr ?_)
  intro i _
  unfold timerText
  rw [List.flatten_cons, List.flatten_cons, List.flatten_singleton]

/-- What a printout shows. -/
structure Shown where
  res : TimerResolution
  regs : List CounterReading
  timers : Nat → List CounterReading

/-- The numbers that a printout shows can be read back from the bare text. -/
theorem printout_delimits (n : Nat) :
    Delimits (fun a b : Shown => a.res.shown = b.res.shown ∧ a.regs = b.regs ∧
        ∀ i ∈ List.range n, a.timers i = b.timers i)
      fun a => (printout n a.res a.regs a.timers).flatten := by
  have hres := resolutionLine_delimits.comp Shown.res
  have hreg := regText_delimits.comp Shown.regs
  have htimers := delimits_parts (l := List.range n) fun i _ =>
    (logText_delimits.comp fun a : Shown => a.timers i).literal
      ("[Timer-".toList ++ Decimal.ofInt (i : Int) ++ "]==>\n".toList)
  intro a b p q heq
  simp only [flatten_printout] at heq
  exact hres.append (hreg.append htimers) a b p q heq

/-! ## Two runs -/

def State.printedText (s : State) : List Char := (s.output.filterMap id).flatten

theorem printedText_of_printout {s : State} {lines : List (List Char)}
    (h : s.output = lines.map some) : s.printedText = lines.flatten := by
  rw [State.printedText, h, List.filterMap_map]
  exact congrArg List.flatten List.filterMap_some

/-- Two safe runs that print the same text found the same resolutions, registered their
timers with the same readings, and each timer logged the same readings. -/
theorem printedText_determines {n : Nat} {res res' : TimerResolution} {as bs : List Action}
    {s t : State} (hroom : 67 * n < Const.logSize)
    (hs : run (step n) (initDpc n res) as = some s)
    (hslate : Along (step n) (fun u a => ¬ LateRegistration n u a) (initDpc n res) as)
    (hsreturned : s.deInit = .returned)
    (ht : run (step n) (initDpc n res') bs = some t)
    (htlate : Along (step n) (fun u a => ¬ LateRegistration n u a) (initDpc n res') bs)
    (htreturned : t.deInit = .returned) (htext : s.printedText = t.printedText) :
    res.shown = res'.shown ∧
      history (step n) registrations (initDpc n res) as =
        history (step n) registrations (initDpc n res') bs ∧
      ∀ i, i < n → history (step n) (loggedReadings i) (initDpc n res) as =
        history (step n) (loggedReadings i) (initDpc n res') bs := by
  rw [printedText_of_printout (output_of_safeRun hroom hs hslate hsreturned),
    printedText_of_printout (output_of_safeRun hroom ht htlate htreturned)] at htext
  obtain ⟨hres, hregs, htimers⟩ :=
    (printout_delimits n).related (a := ⟨res, _, _⟩) (b := ⟨res', _, _⟩) htext
  exact ⟨hres, hregs, fun i hi => htimers i (List.mem_range.mpr hi)⟩

/-- `loggedOnce` with a wait loop that goes round once more. -/
def loggedOnceSlowly : List Action :=
  [.runReg [⟨0, 1⟩, ⟨1000, 1⟩, ⟨1001, 1⟩], .expire 0, .runTimer 0 ⟨2000, 1⟩, .expire 0] ++
    List.replicate 6 .deInit ++ [.runTimer 0 ⟨3500, 1⟩] ++ List.replicate 7 .deInit

/-- Another answer to the request, which is not printed. -/
def oneMillisecond : TimerResolution := { halfMillisecond with newRes := 10000 }

theorem printedText_determines_loggedOnce :
    halfMillisecond.shown = oneMillisecond.shown ∧
      history (step 1) registrations (initDpc 1 halfMillisecond) loggedOnce =
        history (step 1) registrations (initDpc 1 oneMillisecond) loggedOnceSlowly ∧
      ∀ i, i < 1 → history (step 1) (loggedReadings i) (initDpc 1 halfMillisecond) loggedOnce =
        history (step 1) (loggedReadings i) (initDpc 1 oneMillisecond) loggedOnceSlowly := by
  have htext : (run (step 1) (initDpc 1 halfMillisecond) loggedOnce).map State.printedText =
      (run (step 1) (initDpc 1 oneMillisecond) loggedOnceSlowly).map State.printedText := by
    decide +kernel
  obtain ⟨s, hs, hsreturned⟩ : ∃ s, run (step 1) (initDpc 1 halfMillisecond) loggedOnce = some s ∧
      s.deInit = .returned := ⟨_, rfl, rfl⟩
  obtain ⟨t, ht, htreturned⟩ : ∃ t, run (step 1) (initDpc 1 oneMillisecond) loggedOnceSlowly =
      some t ∧ t.deInit = .returned := ⟨_, rfl, rfl⟩
  rw [hs, ht] at htext
  exact printedText_determines (by decide) hs (by decide) hsreturned ht (by decide) htreturned
    (Option.some.inj htext)

end WdmTest.MultiTimer
