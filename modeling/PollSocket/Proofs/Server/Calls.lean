import PollSocket.Proofs.Server.Chronicle

set_option autoImplicit false

/-!
# Calls of handlers

The books of a history note a message when a thread begins to tell the handlers of it, and a chronicle notes an event
then. The journal has a note of every call of a handler. In between there is a duty for each handler that is
registered for the event. So a handler that is registered once is called as often as handlers are told, when threads
have come to the calls that are due (`History.messages_called`, `Chronicle.events_called`).
-/

namespace PollSocket.Server

variable {w v : World} {t : Nat} {x : Thread} {d : Duty} {rest : List Duty}

namespace World

theorem Written.calls {message : Option (Nat × String)} {call : Option Note} (h : w.Written message call v) :
    v.calls = w.calls ++ call.toList := by
  induction h with
  | refl => exact (List.append_nil _).symm
  | sent c text =>
    rw [Option.toList_none, List.append_nil]
    unfold sendTo
    split
    · rfl
    · split
      · rfl
      · exact calls_note rfl w
  | called n hn =>
    rw [World.calls, World.note, List.filter_append, List.filter_singleton, hn]
    rfl
  | note _ hn ih => exact (calls_note hn _).trans ih

theorem Did.calls (h : w.Did t x d v) : v.calls = w.calls ++ (w.call? d).toList := by
  cases h with
  | passes _ hv | plans _ hv | concludes _ hv => exact hv.calls
  | refuses _ _ hcalls | opens _ _ hcalls | greets _ hcalls | replies _ _ _ hcalls | closes _ _ hcalls =>
    exact hcalls.trans (List.append_nil _).symm
  | takes _ hd => cases hd <;> exact (List.append_nil _).symm
  | _ => exact (List.append_nil _).symm

/-- The calls in the journal are those that the steps of threads have made. -/
theorem Next.calls (hx : w.Next t x d rest) : (w.stepThread t).calls = w.calls ++ (w.call? d).toList := by
  rw [hx.step_eq]
  exact ((w.pop t rest).did_discharge t x d).calls

end World

/-- Calls of the handler with a number, for an event of the connection with an index and an id, with data that fits. -/
structure CallPattern where
  number : Nat
  event : String
  conn : Nat
  id : String
  fits : String → Bool

namespace CallPattern

variable (p : CallPattern)

/-- The duty tells handlers of such an event. -/
def tells : Duty → Bool
  | .trigger event c data => event == p.event && c == p.conn && p.fits data
  | _ => false

/-- The handler is the one with the number. -/
def isIts : Reaction → Bool
  | .script number _ => number == p.number
  | _ => false

/-- The duty is such a call. -/
def calls : Duty → Bool
  | .react event r c data => p.isIts r && p.tells (.trigger event c data)
  | _ => false

/-- The note is one of such a call. -/
def notes : Note → Bool
  | .called number event id data => number == p.number && event == p.event && id == p.id && p.fits data
  | _ => false

/-- Number of such calls that were made, or that threads have still to make. -/
def total (w : World) : Nat :=
  w.calls.countP p.notes + ∑ t ∈ Finset.range w.threads.length, (w.agenda t).countP p.calls

/-- The connection has the id, which is no other one's, the handler is registered once, and no thread was ended by a
handler that threw. -/
structure Holds (w : World) : Prop where
  named : w.idOf? p.conn = some p.id
  distinct : w.Distinct
  once : w.handlers.countP (fun h => p.isIts h.reaction && h.event == p.event) = 1
  calm : ∀ y ∈ w.threads, y.thrown = none

instance (w : World) : Decidable (p.Holds w) :=
  decidable_of_iff (_ ∧ _ ∧ _ ∧ _) ⟨fun h => ⟨h.1, h.2.1, h.2.2.1, h.2.2.2⟩,
    fun h => ⟨h.named, h.distinct, h.once, h.calm⟩⟩

variable {p}

/-- A call is noted. -/
theorem countP_call (h : p.Holds w) (d : Duty) : (w.call? d).toList.countP p.notes = if p.calls d then 1 else 0 := by
  cases d with
  | react event r c data =>
    cases r with
    | script number acts =>
      by_cases hc : c = p.conn
      · obtain ⟨y, hy, hid⟩ := Option.map_eq_some_iff.1 h.named
        simp [World.call?, calls, isIts, tells, notes, hc, hy, hid, and_assoc]
      · cases hy : w.conn? c with
        | none => simp [World.call?, calls, tells, hc, hy]
        | some y =>
          have hid : y.id ≠ p.id := fun hid =>
            hc (World.distinct_iff.1 h.distinct c p.conn p.id (by rw [World.idOf?, hy, ← hid]; rfl) h.named)
          simp [World.call?, calls, tells, notes, hc, hy, hid]
    | _ => rfl
  | _ => rfl

/-- Who tells of the event is to call the handler. -/
theorem countP_reacts (h : p.Holds w) (event : String) (c : Nat) (data : String) :
    ((w.handlers.filter fun k => k.event == event).map fun k => Duty.react event k.reaction c data).countP p.calls =
      if p.tells (.trigger event c data) then 1 else 0 := by
  rw [List.countP_map, List.countP_filter]
  cases htells : p.tells (.trigger event c data) with
  | false => simp [calls, htells]
  | true =>
    obtain ⟨⟨rfl, -⟩, -⟩ : (event = p.event ∧ c = p.conn) ∧ p.fits data = true := by simpa [tells] using htells
    simpa [calls, htells] using h.once

/-- What a step leaves to call. -/
theorem countP_step (h : p.Holds w) (hx : w.Next t x d rest)
    (hcalm : ∀ y ∈ (w.stepThread t).threads, y.thrown = none) :
    ((w.stepThread t).agenda t).countP p.calls = (if p.tells d then 1 else 0) + rest.countP p.calls := by
  have hother : d.isTrigger = false → ((w.stepThread t).agenda t).countP p.calls = 0 + rest.countP p.calls := by
    intro htrigger
    obtain ⟨y, hy, hgoes⟩ := hx.goes
    rw [World.agenda_of_some hy]
    rcases hgoes.agenda with ⟨duties, hagenda, hplans⟩ | ⟨-, hthrown, -⟩
    · rw [hagenda, List.countP_append]
      congr 1
      refine List.countP_eq_zero.2 fun e he hcalls => ?_
      have hreact := (hplans.fresh he).2 htrigger
      cases e with
      | react => cases hreact
      | _ => cases hcalls
    · rw [hcalm y (List.mem_of_getElem? hy)] at hthrown
      cases hthrown
  cases d with
  | trigger event c data =>
    have hagenda : (w.stepThread t).agenda t = (w.handlers.filter fun k => k.event == event).map
        (fun k => Duty.react event k.reaction c data) ++ rest := by
      rw [hx.step_eq]
      exact World.agenda_of_some (World.threads_push (World.threads_pop hx.thread rest) _)
    rw [hagenda, List.countP_append, countP_reacts h]
  | _ => exact hother rfl

/-- A step makes a call that was due, or has one due for an event that is told. -/
theorem step (h : p.Holds w) (hx : w.Next t x d rest) (hcalm : ∀ y ∈ (w.stepThread t).threads, y.thrown = none) :
    p.total (w.stepThread t) = p.total w + if p.tells d then 1 else 0 := by
  have ht : t ∈ Finset.range w.threads.length := Finset.mem_range.2 (List.getElem?_eq_some_iff.1 hx.thread).1
  have hothers : ∀ u ∈ (Finset.range w.threads.length).erase t,
      ((w.stepThread t).agenda u).countP p.calls = (w.agenda u).countP p.calls := by
    intro u hu
    rw [hx.agenda_other (Finset.ne_of_mem_erase hu)]
  rw [total, total, hx.calls, List.countP_append, countP_call h, hx.effect.size, ← Finset.add_sum_erase _ _ ht,
    ← Finset.add_sum_erase _ _ ht, Finset.sum_congr rfl hothers, countP_step h hx hcalm, hx.agenda_eq,
    List.countP_cons]
  omega

/-- Threads that do not exist have no calls to make. -/
theorem total_of_le {n : Nat} (hn : w.threads.length ≤ n) :
    p.total w = w.calls.countP p.notes + ∑ t ∈ Finset.range n, (w.agenda t).countP p.calls := by
  rw [total, Finset.sum_subset (Finset.range_mono hn) fun t _ ht => ?_]
  rw [World.agenda_of_none (List.getElem?_eq_none (by simpa using ht))]
  rfl

theorem adds (hadds : w.Adds v) (hcalls : v.calls = w.calls) : p.total v = p.total w := by
  rw [total_of_le (le_max_left v.threads.length w.threads.length), total_of_le (le_max_right _ _), hcalls]
  congr 1
  refine Finset.sum_congr rfl fun t _ => ?_
  rcases hadds t with hsame | ⟨d, hagenda, -, -, hd, -⟩
  · rw [hsame]
  · rw [hagenda, List.countP_cons_of_neg]
    cases d with
    | react => cases hd
    | _ => exact Bool.false_ne_true

/-- What is noted of such events grows with the calls along a run, if it does so with every move. -/
theorem run {σ τ : Type} {after : σ → τ → σ} (world : σ → World) (noted : σ → Nat)
    (hafter : ∀ s m, p.Holds (world s) → p.Holds (world (after s m)) →
      p.total (world (after s m)) + noted s = p.total (world s) + noted (after s m))
    (s : σ) (moves : List τ) (hholds : ∀ front, front <+: moves → p.Holds (world (front.foldl after s))) :
    p.total (world (moves.foldl after s)) + noted s = p.total (world s) + noted (moves.foldl after s) := by
  induction moves generalizing s with
  | nil => rfl
  | cons m more ih =>
    have hmove := hafter s m (hholds [] List.nil_prefix) (hholds [m] ⟨more, rfl⟩)
    have hmore := ih (after s m) fun front hfront => hholds (m :: front) ((List.prefix_cons_inj m).2 hfront)
    rw [List.foldl_cons]
    omega

end CallPattern

variable {p : CallPattern}

/-- A handler of messages has been called, or is to be called, as often as messages were told since. -/
theorem History.messages_called (hp : p.event = "message") (h : History) (moves : List Move)
    (hholds : ∀ front, front <+: moves → p.Holds (front.foldl after h).world) :
    p.total (moves.foldl after h).world + (h.toldFor p.conn).countP p.fits =
      p.total h.world + ((moves.foldl after h).toldFor p.conn).countP p.fits := by
  refine CallPattern.run History.world (fun h => (h.toldFor p.conn).countP p.fits) (fun h m hnow hthen => ?_) h moves
    hholds
  by_cases hm : ∃ t, m = .step t
  · obtain ⟨t, rfl⟩ := hm
    rcases h.step_cases t with ⟨-, hstays⟩ | ⟨-, x, d, rest, hx, hnext⟩
    · rw [hstays]
    · rw [hnext] at hthen ⊢
      have htold : ((h.enter h.world (h.world.stepThread t) t x d).toldFor p.conn).countP p.fits =
          (h.toldFor p.conn).countP p.fits + if p.tells d then 1 else 0 := by
        rw [Books.toldFor, Books.enter, List.map_append, entriesOf_append, List.countP_append]
        congr 1
        cases d with
        | trigger event c data =>
          by_cases hevent : event = "message" <;> by_cases hc : c = p.conn <;>
            simp [Duty.tells?, CallPattern.tells, entriesOf, hp, hevent, hc]
        | _ => rfl
      dsimp only
      rw [htold, CallPattern.step hnow hx hthen.calm]
      omega
  · obtain ⟨hcalls, htold⟩ := h.calls_after fun t heq => hm ⟨t, heq⟩
    have hsame : (h.after m).toldFor p.conn = h.toldFor p.conn := by rw [Books.toldFor, htold, Books.toldFor]
    rw [hsame, CallPattern.adds ((h.turns_after m).adds fun t heq => hm ⟨t, heq⟩) hcalls]

example :
    let id := (Ids.draw {}).1
    let p : CallPattern := ⟨0, "message", 0, id, (· == "hi")⟩
    let body := DrainRequest.body ⟨id, defaultProtocol, ["hi", "you"]⟩
    let h := History.run {} none {} (.register "message" (.script 0 []) :: .request ⟨"POST", {}, []⟩ ::
      List.replicate 3 (.step 0))
    let moves : List Move := .request ⟨"POST", ({} : Header).set sessionField id, body⟩ :: List.replicate 9 (.step 1)
    (∀ front ∈ moves.inits, p.Holds (front.foldl History.after h).world) ∧ p.total h.world = 0 ∧
      (moves.foldl History.after h).world.calls.countP p.notes = 1 := by
  decide +kernel

/-- A handler of another event has been called, or is to be called, as often as the event has begun since. -/
theorem Chronicle.events_called (hp : p.event ≠ "message") (hfits : ∀ data, p.fits data = true) (s : Chronicle)
    (turns : List Turn) (hholds : ∀ front, front <+: turns → p.Holds (front.foldl after s).world) :
    p.total (turns.foldl after s).world + s.events.count (p.conn, p.event) =
      p.total s.world + (turns.foldl after s).events.count (p.conn, p.event) := by
  refine CallPattern.run (fun s => s.world) (fun s => s.events.count (p.conn, p.event)) (fun s turn hnow hthen => ?_) s
    turns hholds
  by_cases hturn : ∃ t, turn = .move (.step t)
  · obtain ⟨t, rfl⟩ := hturn
    rw [events_step, List.count_append]
    by_cases hgoes : s.world.permits t = true ∧ s.world.ready t = true
    · obtain ⟨x, d, rest, hx⟩ := World.agenda_of_ready hgoes.2
      have hcount : d.event?.toList.count (p.conn, p.event) = if p.tells d then 1 else 0 := by
        cases d with
        | trigger event c data =>
          by_cases hm : event = "message"
          · simp [Duty.event?, CallPattern.tells, hm, hp.symm]
          · simp [Duty.event?, CallPattern.tells, hm, hfits, List.count_singleton, and_comm]
        | _ => rfl
      rw [world_after_step hgoes.1 hgoes.2] at hthen ⊢
      rw [World.due?_of_agenda hx.agenda_eq, hcount, CallPattern.step hnow hx hthen.calm]
      omega
    · rw [World.due?_of_waiting hgoes, world_of_waiting hgoes]
      rfl
  · obtain ⟨hadds, -, hevents, hcalls⟩ := s.adds_after fun t heq => hturn ⟨t, heq⟩
    rw [hevents, CallPattern.adds hadds hcalls]

end PollSocket.Server
