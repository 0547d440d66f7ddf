import TapeMachine.Session
import TapeMachine.Proofs.Exchange

/-! Whole sessions. A machine is run again and again, each run cut off anywhere, while the world of the
hooks goes on. The transcript of a session has one call for each input or output instruction that was
executed, in the order of execution, and no other. So the bytes of a device are received one by one
across all runs, and its record of the output is what all of them emitted. -/

namespace TapeMachine

/-- What an instruction asks of the hooks. A byte that is handed over is given as a number. -/
inductive Request where
  | read
  | write (value : ℤ)
deriving DecidableEq, Repr

/-- The byte that is handed over. -/
def Request.value? : Request → Option ℤ
  | read => none
  | write value => some value

namespace Call

def request : Call → Request
  | read _ => .read
  | write value _ => .write value.toNat

/-- The answer to a read. -/
def reply? : Call → Option Reading
  | read reply => some reply
  | write _ _ => none

end Call

/-- What executing the instruction under the cursor has to ask of the hooks: a byte, or to take the
residue of the current cell. -/
def Program.request? (p : Program) (s : State) : Option Request :=
  match p.get? s.cursor.position with
  | some .input => some .read
  | some .output => some (.write (s.tape.read.toInt % 256))
  | _ => none

theorem toNat_outputByte (v : Int64) : ((Tape.outputByte v).toNat : ℤ) = v.toInt % 256 := by
  have h0 := Int.emod_nonneg v.toInt (show (256 : ℤ) ≠ 0 by decide)
  have h1 := Int.emod_lt_of_pos v.toInt (show (0 : ℤ) < 256 by decide)
  rw [Tape.outputByte, UInt8.toNat_ofNat']
  omega

variable {World : Type}

/-- The same control for the hooks that keep a transcript. -/
def Control.recorded (c : Control World) : Control (World × List Call) where
  limit := c.limit
  cancelled x := c.cancelled x.1

theorem refuse?_recorded (c : Control World) (k : ℕ) (w : World) (l : List Call) :
    c.recorded.refuse? k (w, l) = c.refuse? k w := rfl

namespace Engine

/-- A step makes the call that its instruction asks for. -/
theorem request_calls (e : Engine World) (s : State) (w : World) :
    (e.calls s w).map Call.request = (e.program.request? s).toList := by
  unfold calls Program.request?
  cases e.program.get? s.cursor.position with
  | none => rfl
  | some i =>
    cases i with
    | output => simp only [callsOf, List.map_cons, List.map_nil, Call.request, toNat_outputByte, Option.toList]
    | _ => rfl

/-! The states in which a run executes an instruction, by its first step. -/

theorem visits_halted (e : Engine World) (c : Control World) (fuel k : ℕ) (s : State) (w : World) :
    e.visits c fuel .halted k s w = [] := by
  cases fuel <;> rfl

theorem visits_refused (e : Engine World) {c : Control World} {k : ℕ} {w : World} {fault : Fault}
    (h : c.refuse? k w = some fault) (fuel : ℕ) (s : State) : e.visits c fuel .running k s w = [] := by
  cases fuel <;> simp only [visits, h]

theorem visits_zero (e : Engine World) {c : Control World} {k : ℕ} {w : World}
    (h : c.refuse? k w = none) (s : State) : e.visits c 0 .running k s w = [] := by
  simp only [visits, h]

theorem visits_fault {e : Engine World} {c : Control World} {k : ℕ} {s s' : State} {w w' : World}
    {fault : Fault} (h : c.refuse? k w = none) (hs : e.step s w = ⟨.error fault, s', w'⟩) (fuel : ℕ) :
    e.visits c (fuel + 1) .running k s w = [s] := by
  simp only [visits, h, hs]

theorem visits_ok {e : Engine World} {c : Control World} {k : ℕ} {s s' : State} {w w' : World}
    {st : Status} (h : c.refuse? k w = none) (hs : e.step s w = ⟨.ok st, s', w'⟩) (fuel : ℕ) :
    e.visits c (fuel + 1) .running k s w = s :: e.visits c fuel st (k + 1) s' w' := by
  simp only [visits, h, hs]

/-- Keeping a transcript changes nothing about a run, and the run adds to it the requests of the
instructions that it executes. -/
theorem run_requests (e : Engine World) (c : Control World) (fuel : ℕ) (st : Status) (k : ℕ) (s : State)
    (w : World) (l : List Call) :
    (e.recorded.run c.recorded fuel st k s (w, l)).plain = e.run c fuel st k s w ∧
    (e.recorded.run c.recorded fuel st k s (w, l)).world.2.map Call.request =
      l.map Call.request ++ (e.visits c fuel st k s w).filterMap e.program.request? := by
  fun_induction Engine.run e c fuel st k s w generalizing l with
  | case1 fuel k s w =>
    rw [run_halted, visits_halted]
    exact ⟨rfl, (List.append_nil _).symm⟩
  | case2 fuel k s w fault hr =>
    have hc := (refuse?_recorded c k w l).trans hr
    rw [run_refused _ hc, visits_refused _ hr]
    exact ⟨rfl, (List.append_nil _).symm⟩
  | case3 k s w hr =>
    have hc := (refuse?_recorded c k w l).trans hr
    rw [run_zero _ hc, visits_zero _ hr]
    exact ⟨rfl, (List.append_nil _).symm⟩
  | case4 k s w hr fuel fault s' w' hs =>
    have hc := (refuse?_recorded c k w l).trans hr
    have hrec := step_recorded e s w l
    rw [hs] at hrec
    rw [run_fault hc hrec, visits_fault hr hs]
    refine ⟨rfl, ?_⟩
    rw [List.map_append, request_calls, List.filterMap_eq_flatMap_toList, List.flatMap_singleton]
  | case5 k s w hr fuel st s' w' hs ih =>
    have hc := (refuse?_recorded c k w l).trans hr
    have hrec := step_recorded e s w l
    rw [hs] at hrec
    rw [run_ok hc hrec, visits_ok hr hs]
    obtain ⟨hplain, hmap⟩ := ih (l ++ e.calls s w)
    refine ⟨hplain, ?_⟩
    rw [hmap, List.map_append, request_calls, List.append_assoc, List.filterMap_eq_flatMap_toList,
      List.filterMap_eq_flatMap_toList, List.flatMap_cons]

end Engine

/-- A property of the world that no call of the hooks destroys. -/
structure Hooks.Keeps (h : Hooks World) (I : World → Prop) : Prop where
  read : ∀ w, I w → I (h.read w).2
  write : ∀ b w, I w → I (h.write b w).2

namespace Engine

theorem keeps_step {e : Engine World} {I : World → Prop} (h : e.hooks.Keeps I) (s : State) {w : World}
    (hw : I w) : I (e.step s w).world := by
  rw [world_of_step]
  unfold after
  split
  · exact h.write _ w hw
  · exact h.read w hw
  · exact hw

theorem keeps_run {e : Engine World} {I : World → Prop} (h : e.hooks.Keeps I) (c : Control World)
    (fuel : ℕ) (st : Status) (k : ℕ) (s : State) {w : World} (hw : I w) :
    I (e.run c fuel st k s w).world := by
  fun_induction Engine.run e c fuel st k s w with
  | case1 | case2 | case3 => exact hw
  | case4 k s w hr fuel fault s' w' hs =>
    have := keeps_step h s hw
    rwa [hs] at this
  | case5 k s w hr fuel st s' w' hs ih =>
    have := keeps_step h s hw
    rw [hs] at this
    exact ih this

end Engine

/-- One run of a session. Fuel that is used up is a run that something else has cut off. -/
structure Bout (World : Type) where
  mode : Mode := {}
  control : Control World := {}
  fuel : ℕ

def Bout.recorded (b : Bout World) : Bout (World × List Call) := ⟨b.mode, b.control.recorded, b.fuel⟩

namespace Machine

/-- The world after these runs, one behind the other. -/
def play (m : Machine) (hooks : Hooks World) : List (Bout World) → World → World
  | [], w => w
  | b :: bouts, w => m.play hooks bouts (m.run b.mode hooks b.control b.fuel w).world

/-- The states in which these runs execute an instruction, in order. -/
def dispatched (m : Machine) (hooks : Hooks World) : List (Bout World) → World → List State
  | [], _ => []
  | b :: bouts, w =>
    m.visits b.mode hooks b.control b.fuel w ++
      m.dispatched hooks bouts (m.run b.mode hooks b.control b.fuel w).world

/-- All calls of these runs. -/
def log (m : Machine) (hooks : Hooks World) (bouts : List (Bout World)) (w : World) : List Call :=
  (m.play hooks.recorded (bouts.map Bout.recorded) (w, [])).2

/-- What the instructions that these runs execute have to ask of the hooks. -/
def requests (m : Machine) (hooks : Hooks World) (bouts : List (Bout World)) (w : World) : List Request :=
  (m.dispatched hooks bouts w).filterMap m.program.request?

theorem run_requests (m : Machine) (mode : Mode) (hooks : Hooks World) (c : Control World) (fuel : ℕ)
    (w : World) (l : List Call) :
    (m.run mode hooks.recorded c.recorded fuel (w, l)).world.1 = (m.run mode hooks c fuel w).world ∧
    (m.run mode hooks.recorded c.recorded fuel (w, l)).world.2.map Call.request =
      l.map Call.request ++ (m.visits mode hooks c fuel w).filterMap m.program.request? := by
  obtain ⟨hplain, hmap⟩ := (m.engine hooks mode.eof).run_requests c fuel (Status.initial m.program) 0
    { tape := { width := mode.width } } w l
  exact ⟨congrArg Run.world hplain, hmap⟩

theorem play_requests (m : Machine) (hooks : Hooks World) (bouts : List (Bout World)) (w : World)
    (l : List Call) :
    (m.play hooks.recorded (bouts.map Bout.recorded) (w, l)).1 = m.play hooks bouts w ∧
    (m.play hooks.recorded (bouts.map Bout.recorded) (w, l)).2.map Call.request =
      l.map Call.request ++ m.requests hooks bouts w := by
  induction bouts generalizing w l with
  | nil => exact ⟨rfl, (List.append_nil _).symm⟩
  | cons b bouts ih =>
    obtain ⟨hworld, hmap⟩ := m.run_requests b.mode hooks b.control b.fuel w l
    obtain ⟨h1, h2⟩ := ih (m.run b.mode hooks.recorded b.control.recorded b.fuel (w, l)).world.1
      (m.run b.mode hooks.recorded b.control.recorded b.fuel (w, l)).world.2
    rw [hmap, List.append_assoc, hworld, requests, ← List.filterMap_append] at h2
    rw [play, requests, dispatched, ← h2, ← hworld]
    exact ⟨h1, rfl⟩

theorem keeps_play (m : Machine) {hooks : Hooks World} {I : World → Prop} (h : hooks.Keeps I)
    (bouts : List (Bout World)) {w : World} (hw : I w) : I (m.play hooks bouts w) := by
  induction bouts generalizing w with
  | nil => exact hw
  | cons b bouts ih =>
    have he : (m.engine hooks b.mode.eof).hooks.Keeps I := h
    exact ih (Engine.keeps_run he b.control b.fuel (Status.initial m.program) 0
      { tape := { width := b.mode.width } } hw)

end Machine

/-- What the byte at an index of the input is to a read. -/
def Reading.ofInput (x : List UInt8) (i : ℕ) : Reading := x[i]?.elim .endOfInput .byte

/-- Of a device that serves `x`, beside the transcript of its calls: what it has left to serve, which
answers it has given, and which bytes it has taken. -/
structure Serves (x : List UInt8) (a : Device × List Call) : Prop where
  replies : a.1.replies = (x.drop a.1.reads).map .byte
  afterwards : a.1.afterwards = .endOfInput
  receptions : a.1.receptions = []
  reads : (a.2.map Call.request).count .read = a.1.reads
  received : a.2.filterMap Call.reply? = (List.range a.1.reads).map (Reading.ofInput x)
  written : a.1.written.toList.map (fun b => (b.toNat : ℤ)) = (a.2.map Call.request).filterMap Request.value?

theorem Serves.read_eq {x : List UInt8} {d : Device} {l : List Call} (h : Serves x (d, l)) :
    d.read = (Reading.ofInput x d.reads,
      { d with replies := (x.drop (d.reads + 1)).map .byte, reads := d.reads + 1 }) := by
  have hr := h.replies
  rw [← List.tail_drop]
  unfold Reading.ofInput
  rw [← List.head?_drop]
  cases hx : x.drop d.reads with
  | nil =>
    simp only [hx, List.map_nil] at hr
    rw [Device.read_nil hr, h.afterwards]
    simp [hr]
  | cons b rest =>
    simp only [hx, List.map_cons] at hr
    rw [Device.read_cons hr]
    rfl

theorem serves_ofBytes (x : List UInt8) (cancelled : Bool) :
    Serves x ((Device.ofBytes x).setCancelled cancelled, []) where
  replies := rfl
  afterwards := rfl
  receptions := rfl
  reads := rfl
  received := rfl
  written := rfl

theorem keeps_serves (x : List UInt8) : Device.hooks.recorded.Keeps (Serves x) where
  read := by
    rintro ⟨d, l⟩ h
    simp only [Hooks.recorded, Device.hooks, h.read_eq]
    refine ⟨rfl, h.afterwards, h.receptions, ?_, ?_, ?_⟩
    · simpa [Call.request] using h.reads
    · simpa [Call.reply?, List.filterMap_cons, List.range_succ] using h.received
    · simpa [Call.request, Request.value?, List.filterMap_cons] using h.written
  write := by
    rintro b ⟨d, l⟩ h
    simp only [Hooks.recorded, Device.hooks, Device.write_nil h.receptions]
    refine ⟨h.replies, h.afterwards, h.receptions, ?_, ?_, ?_⟩
    · simpa [Call.request] using h.reads
    · simpa [Call.reply?, List.filterMap_cons] using h.received
    · simpa [Call.request, Request.value?, List.filterMap_cons] using h.written

/-- The session after these runs. -/
def Session.after : List (Bounds × ℕ) → Session → Session
  | [], s => s
  | b :: bounds, s => Session.after bounds (s.run b.1 b.2).2

/-- A run within these bounds. -/
def Bounds.bout (b : Bounds) (mode : Mode) (fuel : ℕ) : Bout Device := ⟨mode, b.control, fuel⟩

theorem Session.device_after (bounds : List (Bounds × ℕ)) (s : Session) :
    (Session.after bounds s).device =
      s.machine.play Device.hooks (bounds.map fun b => b.1.bout s.mode b.2) s.device := by
  induction bounds generalizing s with
  | nil => rfl
  | cons b bounds ih => exact ih _

namespace Machine

/-- Over a whole session, the hooks are called once for each input and each output instruction that is
executed, an output with the residue of its cell, in this order and not otherwise. On a device that
serves `x`, the reads of all runs are answered with the bytes of `x` one by one and then with the end of
input, and its record is all that was emitted. -/
theorem session_calls (m : Machine) :
    (∀ (World : Type) (hooks : Hooks World) (bouts : List (Bout World)) (w : World),
      m.play hooks.recorded (bouts.map Bout.recorded) (w, []) =
        (m.play hooks bouts w, m.log hooks bouts w) ∧
      (m.log hooks bouts w).map Call.request = m.requests hooks bouts w) ∧
    (∀ (x : List UInt8) (cancelled : Bool) (bouts : List (Bout Device)),
      let d := (Device.ofBytes x).setCancelled cancelled
      (m.log Device.hooks bouts d).filterMap Call.reply? =
        (List.range ((m.requests Device.hooks bouts d).count .read)).map (Reading.ofInput x) ∧
      (m.play Device.hooks bouts d).written.toList.map (fun b => (b.toNat : ℤ)) =
        (m.requests Device.hooks bouts d).filterMap Request.value?) ∧
    ∀ (mode : Mode) (d : Device) (bounds : List (Bounds × ℕ)),
      (Session.after bounds ⟨m, mode, d⟩).device =
        m.play Device.hooks (bounds.map fun b => b.1.bout mode b.2) d := by
  have hlog : ∀ (World : Type) (hooks : Hooks World) (bouts : List (Bout World)) (w : World),
      (m.play hooks.recorded (bouts.map Bout.recorded) (w, [])).1 = m.play hooks bouts w ∧
      (m.log hooks bouts w).map Call.request = m.requests hooks bouts w :=
    fun _ hooks bouts w => m.play_requests hooks bouts w []
  refine ⟨fun World hooks bouts w => ?_, fun x cancelled bouts => ?_,
    fun mode d bounds => Session.device_after bounds ⟨m, mode, d⟩⟩
  · obtain ⟨hworld, hrequests⟩ := hlog World hooks bouts w
    exact ⟨Prod.ext hworld rfl, hrequests⟩
  · intro d
    obtain ⟨hworld, hrequests⟩ := hlog Device Device.hooks bouts d
    have h := m.keeps_play (keeps_serves x) (bouts.map Bout.recorded) (serves_ofBytes x cancelled)
    have hreads := h.reads
    have hreceived := h.received
    have hwritten := h.written
    rw [← hreads] at hreceived
    rw [hworld] at hwritten
    rw [← hrequests]
    exact ⟨hreceived, hwritten⟩

/-- `,.` on the bytes 7 and 8: the first run is cut off behind its `,`, the second one emits the next
byte, the third one is cancelled at once, and the last one meets the end of the input. -/
theorem session_calls_cut_short : ∃ m : Machine, m.program = .ofList [.input, .output] ∧
    let bouts : List (Bout Device) :=
      [⟨{}, { limit := some 1 }, 9⟩, ⟨{}, {}, 9⟩, ⟨{}, { cancelled := fun _ => true }, 9⟩,
        ⟨⟨.byte, .error⟩, {}, 9⟩]
    m.requests Device.hooks bouts (Device.ofBytes [7, 8]) = [.read, .read, .write 8, .read] ∧
    (m.log Device.hooks bouts (Device.ofBytes [7, 8])).filterMap Call.reply? =
      [.byte 7, .byte 8, .endOfInput] ∧
    (m.play Device.hooks bouts (Device.ofBytes [7, 8])).written.toList.map (fun b => (b.toNat : ℤ)) = [8] := by
  let m : Machine := ⟨.ofList [.input, .output], ⟨#[none, none]⟩, rfl⟩
  refine ⟨m, rfl, ?_⟩
  intro bouts
  have hrequests : m.requests Device.hooks bouts (Device.ofBytes [7, 8]) = [.read, .read, .write 8, .read] := by
    decide
  obtain ⟨hreceived, hwritten⟩ := (session_calls m).2.1 [7, 8] false bouts
  refine ⟨hrequests, hreceived.trans ?_, hwritten.trans ?_⟩
  · exact congrArg (fun l => (List.range (l.count Request.read)).map (Reading.ofInput [7, 8])) hrequests
  · exact congrArg (List.filterMap Request.value?) hrequests

end Machine

end TapeMachine
