import Mathlib
import PollSocket.Framed.Pump

set_option autoImplicit false

/-!
# What a pump writes

Writers, the pump and any number of closers take their steps in any order. A message that was accepted is in the
queue, with the pump or on the connection, in the order of acceptance, until a frame cannot be written; then the
pump is gone and nothing else is written (`Sound.order`). The frame that takes leave is written by the one closer
that has found the pump open, after the pump is gone, so that it is the last one (`Sound.ending`).

A closer that waits has told the pump, and the pump can always do something until it is gone. Nothing is accepted
any more, hence it can do so only a number of times that `effort` bounds.
-/

namespace PollSocket.Framed

/-- The message of a frame that carries one. -/
def Frame.text? : Frame → Option String
  | .text m => some m
  | .leave => none

namespace Stage

/-- What the pump may hold. -/
def Holds : Stage → List String → Prop
  | .idle, held => held = []
  | .writing m, held => held = [m]
  | .gone, _ => True

/-- Steps that the pump has before it, messages in the queue apart. -/
def effort : Stage → Nat
  | .idle => 1
  | .writing _ => 2
  | .gone => 0

end Stage

namespace Pump

/-- The event is a step of the pump itself. -/
def Event.ofPump : Event → Bool
  | .take | .stop | .wrote | .broke => true
  | _ => false

/-- Steps that the pump has before it if it is given no more messages. -/
def effort (p : Pump) : Nat := 2 * p.queue.length + p.stage.effort

/-- The message whose writer is told that it was taken. -/
def granted (p : Pump) : Event → List String
  | .write m => if (p.write m).2.isOk then [m] else []
  | _ => []

/-- The messages whose writers were told so, in order. -/
def acknowledged (p : Pump) : List Event → List String
  | [] => []
  | e :: rest => p.granted e ++ ((p.step? e).getD p).acknowledged rest

/-! ## One step -/

/-- What a step does. -/
inductive Does (p : Pump) : Event → Pump → Prop where
  | accepts (m : String) (hopen : p.closed = false) (htold : (p.write m).2 = .ok ()) :
    Does p (.write m) { p with queue := p.queue ++ [m], accepted := p.accepted ++ [m] }
  | refuses (m : String) (asked : Nat) (f : Failure) (htold : (p.write m).2 = .error f) :
    Does p (.write m) { p with asked }
  | takes {m : String} {rest : List String} (hidle : p.stage = .idle) (hqueue : p.queue = m :: rest) :
    Does p .take { p with stage := .writing m, queue := rest }
  | stops (hidle : p.stage = .idle) : Does p .stop { p with stage := .gone }
  | writes {m : String} (hwriting : p.stage = .writing m) :
    Does p .wrote { p with stage := .idle, written := p.written ++ [.text m] }
  | breaks {m : String} (hwriting : p.stage = .writing m) :
    Does p .broke { p with stage := .gone, asked := p.asked + 1 }
  | closes {e : Event} (asked : Nat) (he : e.ofPump = false) (hnone : p.granted e = []) (hopen : p.closed = false) :
    Does p e { p with asked, closed := true, closing := .waiting }
  /-- Closing was begun before. -/
  | passes {e : Event} (asked : Nat) (he : e.ofPump = false) (hnone : p.granted e = []) :
    Does p e { p with asked }
  | leaves (writable : Bool) (hwaiting : p.closing = .waiting) (hgone : p.stage = .gone) :
    Does p (.leave writable) { p with
      closing := .finished
      written := if writable then p.written ++ [.leave] else p.written }

variable {p q : Pump} {e : Event}

theorem does_close (he : e.ofPump = false) (hnone : p.granted e = []) (asked : Nat) :
    Does p e ({ p with asked } : Pump).close := by
  rw [close]
  split
  next => exact .passes asked he hnone
  next hopen => exact .closes asked he hnone (Bool.eq_false_iff.2 hopen)

theorem does_write (p : Pump) (m : String) : Does p (.write m) (p.write m).1 := by
  rw [write]
  split
  next hclosed => exact .refuses m p.asked .transportClosed (by rw [write, if_pos hclosed])
  next hopen =>
    split
    next hroom => exact .accepts m (Bool.eq_false_iff.2 hopen) (by rw [write, if_neg hopen, if_pos hroom])
    next hfull => exact .refuses m _ .bufferFull (by rw [write, if_neg hopen, if_neg hfull])

theorem does_of_step? (h : p.step? e = some q) : Does p e q := by
  cases e with
  | write m =>
    cases h
    exact p.does_write m
  | take =>
    rw [step?, take?] at h
    split at h
    next m rest hidle hqueue =>
      cases h
      exact .takes hidle hqueue
    next => cases h
  | stop =>
    rw [step?, stop?] at h
    split at h
    next hstop =>
      cases h
      exact .stops (of_decide_eq_true (Bool.and_eq_true_iff.1 hstop).1)
    next => cases h
  | wrote =>
    rw [step?, wrote?] at h
    split at h
    next m hwriting =>
      cases h
      exact .writes hwriting
    next => cases h
  | broke =>
    rw [step?, broke?] at h
    split at h
    next m hwriting =>
      cases h
      exact .breaks hwriting
    next => cases h
  | close =>
    cases h
    exact does_close rfl rfl p.asked
  | closeAsked =>
    rw [step?, closeAsked?] at h
    split at h
    next =>
      cases h
      exact does_close rfl rfl (p.asked - 1)
    next => cases h
  | leave writable =>
    rw [step?, leave?] at h
    split at h
    next hleave =>
      cases h
      obtain ⟨hwaiting, hgone⟩ := Bool.and_eq_true_iff.1 hleave
      exact .leaves writable (of_decide_eq_true hwaiting) (of_decide_eq_true hgone)
    next => cases h

/-! ## Runs -/

/-- What holds between steps, if the messages `sent` are on the connection, with `leaves` behind them, and the pump
holds `held`. -/
structure Sound (p : Pump) (sent held : List String) (leaves : List Frame) : Prop where
  written : p.written = sent.map .text ++ leaves
  order : sent ++ held ++ p.queue = p.accepted
  holds : p.stage.Holds held
  leaves : leaves = [] ∨ leaves = [.leave] ∧ p.closing = .finished
  finished : p.closing = .finished → p.stage = .gone
  closed : p.closed = true ↔ p.closing ≠ .notBegun

variable {sent held : List String} {leaves : List Frame}

theorem Does.sound (hd : p.Does e q) (hs : p.Sound sent held leaves) :
    ∃ sent held leaves, q.Sound sent held leaves := by
  obtain ⟨hwritten, horder, hholds, hleaves, hfinished, hclosed⟩ := hs
  cases hd with
  | accepts m hopen =>
    refine ⟨sent, held, leaves, hwritten, ?_, hholds, hleaves, hfinished, hclosed⟩
    rw [← horder, ← List.append_assoc]
  | refuses | passes => exact ⟨sent, held, leaves, hwritten, horder, hholds, hleaves, hfinished, hclosed⟩
  | @takes m rest hidle hqueue =>
    rw [hidle] at hholds
    obtain rfl : held = [] := hholds
    refine ⟨sent, [m], leaves, hwritten, ?_, rfl, hleaves, fun h => ?_, hclosed⟩
    · rw [← horder, hqueue, List.append_nil, List.append_assoc]
      rfl
    · rw [hfinished h] at hidle
      cases hidle
  | stops | breaks => exact ⟨sent, held, leaves, hwritten, horder, trivial, hleaves, fun _ => rfl, hclosed⟩
  | @writes m hwriting =>
    have hnot : p.closing ≠ .finished := by
      intro h
      rw [hfinished h] at hwriting
      cases hwriting
    obtain rfl : leaves = [] := hleaves.resolve_right fun h => hnot h.2
    rw [hwriting] at hholds
    obtain rfl : held = [m] := hholds
    refine ⟨sent ++ [m], [], [], ?_, ?_, rfl, Or.inl rfl, fun h => absurd h hnot, hclosed⟩
    · rw [hwritten, List.map_append, List.append_nil, List.append_nil]
      rfl
    · rw [← horder, List.append_nil]
  | closes asked he hnone hopen =>
    -- no closer has finished yet
    have hnot : p.closing ≠ .finished := by
      intro h
      have hshut := hclosed.2 (by simp [h])
      cases hopen.symm.trans hshut
    obtain rfl : leaves = [] := hleaves.resolve_right fun h => hnot h.2
    exact ⟨sent, held, [], hwritten, horder, hholds, Or.inl rfl, nofun, by simp⟩
  | leaves writable hwaiting hgone =>
    have hshut := hclosed.2 (by simp [hwaiting])
    obtain rfl : leaves = [] := hleaves.resolve_right fun h => by simp [hwaiting] at h
    cases writable with
    | false => exact ⟨sent, held, [], hwritten, horder, hholds, Or.inl rfl, fun _ => hgone, by simp [hshut]⟩
    | true =>
      refine ⟨sent, held, [.leave], ?_, horder, hholds, Or.inr ⟨rfl, rfl⟩, fun _ => hgone, by simp [hshut]⟩
      rw [if_pos rfl, hwritten, List.append_nil]

theorem Does.accepted (hd : p.Does e q) : q.accepted = p.accepted ++ p.granted e := by
  cases hd with
  | accepts m _ htold =>
    rw [granted, htold]
    rfl
  | refuses m _ f htold =>
    rw [granted, htold]
    exact (List.append_nil _).symm
  | closes _ _ hnone | passes _ _ hnone =>
    rw [hnone, List.append_nil]
  | _ => exact (List.append_nil _).symm

theorem Does.closed (hd : p.Does e q) (hclosed : p.closed = true) : q.closed = true := by
  cases hd with
  | closes => rfl
  | _ => exact hclosed

/-- A closed pump has less before it with each of its steps, and what others do adds nothing. -/
theorem Does.effort (hd : p.Does e q) (hclosed : p.closed = true) :
    q.effort ≤ p.effort ∧ (e.ofPump = true → q.effort < p.effort) := by
  cases hd with
  | accepts _ hopen =>
    cases hclosed.symm.trans hopen
  | refuses | leaves => exact ⟨le_rfl, nofun⟩
  | closes _ he | passes _ he => exact ⟨le_rfl, fun h => by simp [he] at h⟩
  | takes hidle hqueue =>
    simp only [Pump.effort, Stage.effort, hidle, hqueue, List.length_cons]
    omega
  | stops hstage | writes hstage | breaks hstage =>
    simp only [Pump.effort, Stage.effort, hstage]
    omega

/-- What holds of a state and of every step holds along a run, in which a step that is not possible is left out. -/
theorem run_induction {motive : Pump → Prop} (hp : motive p) (hstep : ∀ p e q, p.Does e q → motive p → motive q)
    (events : List Event) : motive (p.run events) := by
  induction events generalizing p with
  | nil => exact hp
  | cons e rest ih =>
    refine ih ?_
    cases hq : p.step? e with
    | none => exact hp
    | some q => exact hstep p e q (does_of_step? hq) hp

theorem accepted_run (events : List Event) : (p.run events).accepted = p.accepted ++ p.acknowledged events := by
  induction events generalizing p with
  | nil => exact (List.append_nil _).symm
  | cons e rest ih =>
    have hstep : ((p.step? e).getD p).accepted = p.accepted ++ p.granted e := by
      cases hq : p.step? e with
      | some q => exact (does_of_step? hq).accepted
      | none =>
        cases e with
        | write => cases hq
        | _ => exact (List.append_nil _).symm
    rw [run, ih, hstep, acknowledged, List.append_assoc]

/-- A pump that is told to stop and is not gone can do something. -/
theorem exists_step (hclosed : p.closed = true) (hstage : p.stage ≠ .gone) :
    ∃ e q, e.ofPump = true ∧ p.step? e = some q := by
  cases hs : p.stage with
  | idle => exact ⟨.stop, _, rfl, by rw [step?, stop?, hs, hclosed]; rfl⟩
  | writing m => exact ⟨.wrote, _, rfl, by rw [step?, wrote?, hs]⟩
  | gone => exact absurd hs hstage

/-- However writers, the pump and closers take their steps, the messages on the connection are the first of those
whose writers were told that they were taken, in their order; behind them there is at most one frame that takes
leave, and nothing else. A closed pump tells every writer so, for good. While a closer waits and the pump is not
gone, the pump can do a step, and it has less before it with each of its steps, whatever others do between
them. -/
theorem frames_in_order (capacity : Nat) (events : List Event) :
    let start : Pump := { capacity }
    let p := start.run events
    let texts := p.written.filterMap Frame.text?
    texts <+: start.acknowledged events ∧
    (p.written = texts.map .text ∨ p.written = texts.map .text ++ [.leave]) ∧
    (p.closed = true → ∀ later m, ((p.run later).write m).2 = .error .transportClosed) ∧
    (p.closing = .waiting → p.stage ≠ .gone →
      (∃ e q, e.ofPump = true ∧ p.step? e = some q) ∧
      ∀ e q, p.step? e = some q → q.effort ≤ p.effort ∧ (e.ofPump = true → q.effort < p.effort)) := by
  intro start p texts
  obtain ⟨sent, held, leaves, hs⟩ : ∃ sent held leaves, p.Sound sent held leaves := by
    refine run_induction (motive := fun p => ∃ sent held leaves, p.Sound sent held leaves) ?_ ?_ events
    · exact ⟨[], [], [], rfl, rfl, rfl, Or.inl rfl, nofun, by simp [start]⟩
    · rintro p e q hd ⟨sent, held, leaves, hs⟩
      exact hd.sound hs
  have hsent : texts = sent := by
    have hmap : (sent.map Frame.text).filterMap Frame.text? = sent := by
      rw [List.filterMap_map]
      exact List.filterMap_some
    have hnone : leaves.filterMap Frame.text? = [] := by
      rcases hs.leaves with rfl | ⟨rfl, -⟩ <;> rfl
    rw [show texts = p.written.filterMap Frame.text? from rfl, hs.written, List.filterMap_append, hmap, hnone,
      List.append_nil]
  have haccepted : p.accepted = start.acknowledged events := accepted_run events
  refine ⟨?_, ?_, fun hclosed later m => ?_, fun hwaiting hstage => ?_⟩
  · rw [hsent, ← haccepted, ← hs.order, List.append_assoc]
    exact List.prefix_append sent _
  · rw [hsent, hs.written]
    exact hs.leaves.imp (by rintro rfl; exact List.append_nil _) (by rintro ⟨rfl, -⟩; rfl)
  · have hstill : (p.run later).closed = true :=
      run_induction (motive := fun p => p.closed = true) hclosed (fun _ _ _ hd h => hd.closed h) later
    rw [write, if_pos hstill]
  · have hclosed := hs.closed.2 (by simp [hwaiting])
    exact ⟨exists_step hclosed hstage, fun e q hq => (does_of_step? hq).effort hclosed⟩

/-- Two messages find no room while a frame is being written, and a caller closes the pump. -/
def crowded : List Event :=
  [.write "a", .write "b", .take, .write "c", .wrote, .write "d", .write "e", .take, .close, .closeAsked]

/-- Then the frame cannot be written, and all closers go on. -/
def brokenFrame : List Event :=
  crowded ++ ([.broke, .closeAsked, .leave true, .closeAsked, .leave true, .close] : List Event)

theorem frames_in_order_brokenFrame :
    let start : Pump := { capacity := 2 }
    ((start.run crowded).closing = .waiting ∧ (start.run crowded).stage = .writing "b" ∧
      ∃ e q, e.ofPump = true ∧ (start.run crowded).step? e = some q) ∧
    (start.run brokenFrame).written = [.text "a", .leave] ∧
      start.acknowledged brokenFrame = ["a", "b", "c"] ∧
      (start.run brokenFrame).written.filterMap Frame.text? <+: start.acknowledged brokenFrame ∧
      ∀ later m, (((start.run brokenFrame).run later).write m).2 = .error .transportClosed := by
  intro start
  have hcrowded : (start.run crowded).closing = .waiting ∧ (start.run crowded).stage = .writing "b" := by decide
  have hbroken : (start.run brokenFrame).written = [.text "a", .leave] ∧
      start.acknowledged brokenFrame = ["a", "b", "c"] ∧ (start.run brokenFrame).closed = true := by decide
  obtain ⟨-, -, -, hwaits⟩ := frames_in_order 2 crowded
  obtain ⟨hfirst, -, hrefuses, -⟩ := frames_in_order 2 brokenFrame
  exact ⟨⟨hcrowded.1, hcrowded.2, (hwaits hcrowded.1 (by simp [start, hcrowded.2])).1⟩, hbroken.1, hbroken.2.1,
    hfirst, hrefuses hbroken.2.2⟩

end Pump

end PollSocket.Framed
