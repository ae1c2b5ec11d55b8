import PollSocket.Proofs.Socket.Closing
import PollSocket.Proofs.Socket.Likeness

set_option autoImplicit false

/-!
# Sockets that are fed by their program

The handlers of a socket may do nothing. Then only the program around the socket posts tasks, besides the
handshake and the completions of calls, and they are taken in the order of posting (`History.Fed`). If the
program sends messages and asks for the socket to be closed once drained, and no drain fails, then a socket
that is closed has carried all messages, each once and in order, and all of them were answered
(`History.Fed.drained`).
-/

namespace PollSocket.Socket

variable {moves : List Move} {s : Nat} {t : Task}

/-! ## Handlers that do nothing -/

/-- The task exchanges a handler. -/
def Task.exchanges : Task → Bool
  | .handle _ _ _ => true
  | _ => false

namespace World

/-- Handlers do nothing, and none is doing anything; the tasks of the loop are those of `loop`. -/
structure IdleHandlers (loop : Loop Task) (w : World) : Prop where
  scripts : ∀ s slot script, (w.socket s).handlers.get slot = some script → script = []
  agenda : ∀ d ∈ w.agenda, d.isAct = false
  loop : w.loop = loop

variable {loop : Loop Task} {w : World}

/-- Sockets may change if their handlers stay. -/
theorem IdleHandlers.keep {v : World} (h : w.IdleHandlers loop)
    (hhandlers : ∀ s, (v.socket s).handlers = (w.socket s).handlers) (hagenda : v.agenda = w.agenda)
    (hloop : v.loop = w.loop) : v.IdleHandlers loop where
  scripts s := by
    rw [hhandlers]
    exact h.scripts s
  agenda := by
    rw [hagenda]
    exact h.agenda
  loop := hloop.trans h.loop

theorem IdleHandlers.push (h : w.IdleHandlers loop) {duties : List Duty} (hduties : ∀ d ∈ duties, d.isAct = false) :
    (w.push duties).IdleHandlers loop where
  __ := h
  agenda d hd := (List.mem_append.1 hd).elim (hduties d) (h.agenda d)

/-- All parts that tasks and jobs are made of leave handlers as they are. -/
theorem likeness_idleHandlers (loop : Loop Task) (s : Nat) :
    Likeness (fun w v => v = w ∧ w.IdleHandlers loop) s s where
  view := by
    rintro w v ⟨rfl, -⟩
    exact ⟨_, _, rfl⟩
  unmarked := by
    rintro w v ⟨rfl, -⟩
    rfl
  update := by
    rintro w v ⟨rfl, h⟩ f hf
    exact ⟨rfl, h.keep (v.field_update s f (·.handlers) hf.handlers) rfl rfl⟩
  unmark := by
    rintro w v ⟨rfl, h⟩
    exact ⟨rfl, h.keep (v.field_update s _ (·.handlers) fun _ => rfl) rfl rfl⟩
  fault := by
    rintro w v ⟨rfl, -⟩
    rfl
  log := by
    rintro w v ⟨rfl, h⟩ level message attrs
    exact ⟨rfl, h.keep (fun _ => rfl) rfl rfl⟩
  push := by
    rintro w v ⟨rfl, h⟩ jobs -
    refine ⟨rfl, h.push fun d hd => ?_⟩
    obtain ⟨j, -, rfl⟩ := List.mem_map.1 hd
    cases j <;> rfl
  issue := by
    rintro w v ⟨rfl, h⟩ body batch
    refine ⟨rfl, h.keep (fun r => ?_) rfl rfl⟩
    rw [socket_issue]
    split
    next hr => rw [hr.1]
    next => rfl
  release := by
    rintro w v ⟨rfl, h⟩
    exact ⟨rfl, h.keep (v.field_release s (·.handlers) fun _ _ => rfl) (v.agenda_release s)
      (v.loop_release s)⟩

theorem IdleHandlers.execute (h : w.IdleHandlers loop) (ht : t.exchanges = false) :
    (w.execute t).IdleHandlers loop := by
  cases hhost : t.host? w with
  | none =>
    rw [execute_of_host?_none hhost]
    exact h
  | some s =>
    refine ((likeness_idleHandlers loop s).execute ⟨rfl, h⟩ (.of_host? rfl hhost ?_)).2
    rintro slot script rfl
    cases ht

/-- A step takes the next task of the loop, or leaves the loop as it is. -/
theorem IdleHandlers.step (h : w.IdleHandlers w.loop) (hqueue : ∀ t ∈ w.loop.queue, t.exchanges = false) :
    ∃ loop, w.step.IdleHandlers loop ∧ (w.taking? = none ∧ loop = w.loop ∨
      ∃ t, w.taking? = some t ∧ w.loop.next? = some (t, loop)) := by
  unfold World.step taking?
  cases hagenda : w.agenda with
  | nil => exact ⟨w.loop, h, Or.inl ⟨rfl, rfl⟩⟩
  | cons d rest =>
    have hacts := h.agenda
    rw [hagenda] at hacts
    set v : World := { w with agenda := rest }
    have hpop : v.IdleHandlers w.loop := ⟨h.scripts, fun e he => hacts e (List.mem_cons_of_mem d he), rfl⟩
    cases d using Duty.byJobs with
    | run ran inside =>
      dsimp only [discharge]
      cases hn : w.loop.next? with
      | none =>
        refine ⟨w.loop, ?_, Or.inl ⟨rfl, rfl⟩⟩
        cases inside <;> exact hpop.keep (fun _ => rfl) rfl rfl
      | some next =>
        obtain ⟨t, loop⟩ := next
        refine ⟨loop, ?_, Or.inr ⟨t, rfl, rfl⟩⟩
        have ht : t.exchanges = false := hqueue t (by rw [queue_of_next? hn]; exact List.mem_cons_self)
        have htaken : ({ v with loop } : World).IdleHandlers loop := ⟨hpop.scripts, hpop.agenda, rfl⟩
        exact (htaken.push (by simp [Duty.isAct])).execute ht
    | act s data a => cases hacts _ List.mem_cons_self
    | leave s event => exact ⟨w.loop, hpop, Or.inl ⟨rfl, rfl⟩⟩
    | job s j =>
      cases j with
      | emit event =>
        refine ⟨w.loop, ?_, Or.inl ⟨rfl, rfl⟩⟩
        dsimp only [Job.duty, discharge, emit]
        split
        · exact hpop
        next script hscript =>
          -- the handler has no acts, so only its end is planned
          rw [h.scripts s event.slot script hscript]
          exact IdleHandlers.push (w := v.note _) (hpop.keep (fun _ => rfl) rfl rfl) (by simp [Duty.isAct])
      | _ =>
        exact ⟨w.loop, ((likeness_idleHandlers w.loop s).discharge (w := v) ⟨rfl, hpop⟩ rfl).2, Or.inl ⟨rfl, rfl⟩⟩

end World

/-! ## Notes on calls of handlers -/

/-- The note is about a call of a handler. -/
def Note.isCall : Note → Bool
  | .called _ _ => true
  | _ => false

namespace World

/-- What was added to a journal is about no call of a handler. -/
def Noted (journal : List Note) (w : World) : Prop :=
  ∃ notes, w.journal = journal ++ notes ∧ ∀ n ∈ notes, n.isCall = false

variable {journal : List Note} {w : World}

theorem Noted.refl (w : World) : w.Noted w.journal := ⟨[], (List.append_nil _).symm, by simp⟩

theorem Noted.note (h : w.Noted journal) {n : Note} (hn : n.isCall = false) :
    (w.note n).Noted journal := by
  obtain ⟨notes, hnotes, hnone⟩ := h
  refine ⟨notes ++ [n], ?_, fun m hm => ?_⟩
  · show w.journal ++ [n] = _
    rw [hnotes, List.append_assoc]
  · rcases List.mem_append.1 hm with hm | hm
    · exact hnone m hm
    · rw [List.mem_singleton.1 hm]
      exact hn

theorem kept_noted (journal : List Note) (s : Nat) : Kept (fun w => w.Noted journal) s where
  update h _ _ := h
  log h _ _ _ := h.note rfl
  push h _ _ := h
  issue h _ _ := by
    exact Noted.note h rfl
  release {w} h := by
    unfold World.release
    split
    · exact h
    · show (w.abort _).Noted journal
      unfold World.abort
      split
      · exact h
      · split
        · exact h
        · exact Noted.note (w := { w with calls := _ }) h rfl

/-- Handlers are called where there is occasion to. -/
theorem IdleHandlers.emitting_of_called {loop : Loop Task} (h : w.IdleHandlers loop) {event : Event}
    (hmem : .called s event ∈ w.step.journal.drop w.journal.length) :
    w.emitting? = some (s, event) ∧ s < w.sockets.length := by
  have hnoted : ¬ w.step.Noted w.journal := by
    rintro ⟨notes, hnotes, hnone⟩
    rw [hnotes, List.drop_left] at hmem
    cases hnone _ hmem
  unfold World.step at hmem hnoted
  unfold emitting?
  cases hagenda : w.agenda with
  | nil =>
    rw [hagenda] at hnoted
    exact absurd (Noted.refl w) hnoted
  | cons d rest =>
    have hacts := h.agenda
    rw [hagenda] at hmem hnoted hacts
    set v : World := { w with agenda := rest }
    have hpop : v.Noted w.journal := Noted.refl w
    cases d using Duty.byJobs with
    | run ran inside =>
      refine absurd ?_ hnoted
      dsimp only [discharge]
      cases v.loop.next? with
      | none => cases inside with
        | none => exact hpop
        | some r => exact hpop.note rfl
      | some next =>
        obtain ⟨t, loop⟩ := next
        have hrun : (({ v with loop } : World).push [.run (ran + 1) inside]).Noted w.journal := hpop
        dsimp only
        cases hhost : t.host? (({ v with loop } : World).push [.run (ran + 1) inside]) with
        | none =>
          rw [execute_of_host?_none hhost]
          exact hrun
        | some r => exact (kept_noted w.journal r).execute hrun hhost
    | act r data a => cases hacts _ List.mem_cons_self
    | leave r e => exact absurd hpop hnoted
    | job r j =>
      cases j with
      | emit e =>
        dsimp only [Job.duty, discharge] at hmem hnoted
        cases hget : (v.socket r).handlers.get e.slot with
        | none =>
          rw [emit_of_none hget] at hnoted
          exact absurd hpop hnoted
        | some script =>
          rw [emit_of_some hget] at hmem
          change Note.called s event ∈ (w.journal ++ [Note.called r e]).drop w.journal.length at hmem
          rw [List.drop_left, List.mem_singleton] at hmem
          cases hmem
          refine ⟨rfl, ?_⟩
          by_contra hout
          change (w.socket s).handlers.get event.slot = some script at hget
          rw [socket_of_le (Nat.le_of_not_lt hout)] at hget
          cases event <;> cases hget
      | _ =>
        exact absurd ((kept_noted w.journal r).discharge hpop rfl) hnoted

end World

/-! ## Tasks in the order of posting -/

theorem closed_of_next? {τ : Type} {l rest : Loop τ} {t : τ} (h : l.next? = some (t, rest)) :
    rest.closed = l.closed := by
  unfold Loop.next? at h
  split at h
  · cases h
  · split at h <;> cases h
    rfl

/-- The task is one that a program asks for: neither a handshake nor a completion. -/
def Task.asked : Task → Bool
  | .establish _ => false
  | .succeed _ _ => false
  | .fail _ => false
  | _ => true

/-- The move is one of the loop or of the network. -/
def Move.goesOn : Move → Bool
  | .step => true
  | .drive => true
  | .succeed _ _ => true
  | .fail _ => true
  | .fault _ => true
  | _ => false

/-- The program has asked for `tasks`, and nobody else for anything. -/
structure History.Fed (h : History) (tasks : List Task) : Prop where
  idle : h.world.IdleHandlers h.world.loop
  unclosed : h.world.loop.closed = false
  order : (h.taken ++ h.world.loop.queue).filter Task.asked = tasks
  plain : ∀ t ∈ tasks, t.exchanges = false

namespace History.Fed

variable {h : History} {tasks : List Task}

section

variable (hf : h.Fed tasks)
include hf

theorem queue_plain : ∀ t ∈ h.world.loop.queue, t.exchanges = false := by
  intro t ht
  cases t with
  | handle s slot script =>
    refine hf.plain _ ?_
    rw [← hf.order]
    exact List.mem_filter.2 ⟨List.mem_append_right _ ht, rfl⟩
  | _ => rfl

theorem step : (h.after .step).Fed tasks := by
  obtain ⟨loop, hidle, hloop⟩ := hf.idle.step hf.queue_plain
  have hsame : h.world.step.loop = loop := hidle.loop
  have htaken : (h.after .step).taken = h.taken ++ h.world.taking?.toList := h.taken_step
  refine ⟨by rw [← hsame] at hidle; exact hidle, ?_, ?_, hf.plain⟩
  · show h.world.step.loop.closed = false
    rw [hsame]
    rcases hloop with ⟨-, rfl⟩ | ⟨t, -, hnext⟩
    · exact hf.unclosed
    · rw [closed_of_next? hnext]
      exact hf.unclosed
  · show ((h.after .step).taken ++ h.world.step.loop.queue).filter Task.asked = tasks
    rw [htaken, hsame]
    rcases hloop with ⟨hnone, rfl⟩ | ⟨t, htake, hnext⟩
    · rw [hnone, Option.toList_none, List.append_nil]
      exact hf.order
    · -- the task that is taken is the first that waits
      rw [htake, Option.toList_some, List.append_assoc, List.singleton_append, ← queue_of_next? hnext]
      exact hf.order

/-- A task is posted on a loop that is open. -/
theorem post {w : World} (hsockets : w.sockets = h.world.sockets)
    (hagenda : w.agenda = h.world.agenda) (hloop : w.loop = (h.world.loop.post t).1)
    (ht : t.exchanges = false) :
    ({ h with world := w } : History).Fed (tasks ++ if t.asked then [t] else []) := by
  have hposted : w.loop = { h.world.loop with queue := h.world.loop.queue ++ [t] } := by
    rw [hloop, Loop.post, if_neg (by simp [hf.unclosed])]
  refine ⟨⟨fun s => ?_, ?_, rfl⟩, ?_, ?_, ?_⟩
  · rw [World.socket_of_sockets_eq hsockets]
    exact hf.idle.scripts s
  · show ∀ d ∈ w.agenda, d.isAct = false
    rw [hagenda]
    exact hf.idle.agenda
  · show w.loop.closed = false
    rw [hposted]
    exact hf.unclosed
  · show (h.taken ++ w.loop.queue).filter Task.asked = _
    rw [hposted, ← List.append_assoc, List.filter_append, hf.order]
    split
    next hasked => rw [List.filter_cons_of_pos hasked, List.filter_nil]
    next hasked => rw [List.filter_cons_of_neg hasked, List.filter_nil]
  · intro u hu
    rcases List.mem_append.1 hu with hu | hu
    · exact hf.plain u hu
    · split at hu
      · rw [List.mem_singleton.1 hu]
        exact ht
      · cases hu

/-- Loop and network ask for nothing. -/
theorem after {m : Move} (hm : m.goesOn = true) : (h.after m).Fed tasks := by
  have hcompletes : ∀ {c : Nat} {t : Task}, t.completes = true →
      ({ h with world := (h.world.answer c t).1 } : History).Fed tasks := by
    intro c t ht
    have hposted := hf.post (w := (h.world.answer c t).1) (t := t) rfl rfl rfl
      (by cases t <;> first | rfl | cases ht)
    have hasked : t.asked = false := by cases t <;> first | rfl | cases ht
    rwa [hasked, if_neg (by simp), List.append_nil] at hposted
  have hmoves := h.moves_after m
  generalize h.after m = k at hmoves ⊢
  cases hmoves with
  | idle => exact hf
  | step => exact hf.step
  | drive => exact ⟨⟨hf.idle.scripts, by simp [Duty.isAct], rfl⟩, hf.unclosed, hf.order, hf.plain⟩
  | succeed | fail => exact hcompletes rfl
  | fault cause => exact ⟨⟨hf.idle.scripts, hf.idle.agenda, rfl⟩, hf.unclosed, hf.order, hf.plain⟩
  | _ => cases hm

/-- The program asks for something. -/
theorem asks (hs : s < h.world.sockets.length) {op : Operation}
    (hop : (op.task s).exchanges = false) : (h.after (.post s op)).Fed (tasks ++ [op.task s]) := by
  have hposted := hf.post (w := (h.world.post (op.task s)).1) rfl rfl rfl hop
  have hasked : (op.task s).asked = true := by cases op <;> rfl
  rw [hasked] at hposted
  have hafter : h.after (.post s op) = { h with world := (h.world.post (op.task s)).1 } := if_pos hs
  rwa [hafter]

end

/-- A socket whose handlers do nothing is created. -/
theorem create {o : Options} (ho : ∀ slot script, o.handlers.get slot = some script → script = []) :
    (History.run [.create o]).Fed [] := by
  refine ⟨⟨fun s slot script hscript => ?_, ?_, rfl⟩, rfl, rfl, by simp⟩
  · have hsocket : (History.run [.create o]).world.socket s = (({} : World).addSocket o.socket).socket s :=
      rfl
    rw [hsocket, World.socket_addSocket] at hscript
    split at hscript
    · exact ho slot script hscript
    · cases slot <;> cases hscript
  · exact fun d hd => by cases hd

end History.Fed

/-! ## Closed when drained -/

namespace Life

variable {l k : Life}

/-- Only a socket that is to close once drained does so. -/
theorem closeIfDrained_of_not_closing (h : l.closeIfDrained.closing = false) : l.closeIfDrained = l := by
  refine closeIfDrained_eq_self fun hcond => ?_
  rw [closeIfDrained_eq_close hcond.1 hcond.2.1 hcond.2.2.1 hcond.2.2.2] at h
  exact absurd hcond.1 (Bool.eq_false_iff.1 h)

/-- A socket that is not to close once drained closes only if it is told to. -/
theorem Turn.closed_of_not_closing (t : l.Turn k) (hnot : k.closing = false)
    (hclose : .close ∉ k.trail) (hclosed : k.state = .closed) : l.state = .closed := by
  cases t with
  | rest | created | caught => exact hclosed
  | deed d =>
    cases d with
    | send text =>
      simp only [execute] at hclosed
      split at hclosed
      · exact hclosed
      · rwa [state_drain] at hclosed
    | close =>
      rw [trail_execute] at hclose
      exact absurd (by simp) hclose
    | closeWhenDrained =>
      -- from now on the socket is to close once drained
      have hclosing := congrArg closing (closeIfDrained_of_not_closing hnot)
      cases (hnot.symm.trans hclosing : false = true)
    | handshakeSucceeded id =>
      simp only [execute] at hclosed
      split at hclosed
      · cases hclosed
      · exact hclosed
    | drainFailed batch =>
      simp only [execute] at hclosed hnot
      split at hclosed
      next hclosing =>
        rw [if_pos hclosing] at hnot
        exact absurd hclosing (by simpa [close] using hnot)
      next => exact hclosed
    | _ =>
      exact hclosed
  | job j rest =>
    cases j with
    | emit event => exact hclosed
    | dispatch messages => cases messages <;> exact hclosed
    | resume | begin =>
      change (closeIfDrained _).state = .closed at hclosed
      rwa [closeIfDrained_of_not_closing hnot, state_drain] at hclosed
    | closeIfClosing =>
      simp only [discharge] at hclosed hnot
      split at hclosed
      next hclosing =>
        rw [if_pos hclosing] at hnot
        exact absurd hclosing (by simpa [close] using hnot)
      next => exact hclosed

/-- All messages that were sent up to some point, at which the socket had been asked to close once
drained, were answered. -/
def Parted (l : Life) : Prop :=
  ∃ front, front <+: l.trail ∧ .closeWhenDrained ∈ front ∧
    front.flatMap Deed.delivered = front.filterMap Deed.sent?

theorem Balanced.delivered_eq (h : l.Balanced) (hpending : l.pending = [])
    (hflight : ∀ batch, l.flight = some (some batch) → batch = []) : l.delivered = l.sent := by
  have hafloat : l.afloat = [] := by
    cases hcall : l.flight with
    | none => exact afloat_of_none hcall
    | some o =>
      cases o with
      | none => exact afloat_of_handshake hcall
      | some batch =>
        rw [afloat, hcall, hflight batch hcall]
        split <;> rfl
  rw [← h.sent, h.carried, hafloat, hpending, List.append_nil, List.append_nil]

/-- What holds of a socket that nobody closes, and no drain of which fails. -/
theorem parted_run (moves : List Move) (s : Nat) :
    let l := (History.run moves).life s
    .close ∉ l.trail → (∀ d ∈ l.trail, d.spoils = false) → l.state = .closed → l.Parted := by
  refine (holds_run (P := fun l => l.Sane ∧ ((∀ d ∈ l.trail, d.spoils = false) → l.Balanced) ∧
      (.close ∉ l.trail → l.state = .closed → l.closing = true) ∧
      (.close ∉ l.trail → (∀ d ∈ l.trail, d.spoils = false) → l.state = .closed → l.Parted))
    ⟨sane_run [] 0, fun _ => ⟨rfl, rfl⟩, fun _ h => (by cases h), fun _ _ h => (by cases h)⟩
    (fun {l k} ⟨hsane, hbalanced, hclosing, hparted⟩ t => ?_) moves s).2.2.2
  have hasked : .close ∉ k.trail → k.state = .closed → k.closing = true := by
    intro hclose hclosed
    by_contra hnot
    have hbefore := t.closed_of_not_closing (Bool.eq_false_iff.2 hnot) hclose hclosed
    -- what it was asked for before it is still asked for
    have hmem := hsane.closing.1 (hclosing (fun h => hclose (t.trail.subset h)) hbefore)
    exact hnot ((hsane.turn t).closing.2 (t.trail.subset hmem))
  refine ⟨hsane.turn t, fun hk => (hbalanced fun d hd => hk d (t.trail.subset hd)).turn hsane t hk,
    hasked, ?_⟩
  intro hclose hspoils hclosed
  by_cases hbefore : l.state = .closed
  · obtain ⟨front, hfront, hrest⟩ := hparted (fun h => hclose (t.trail.subset h))
      (fun d hd => hspoils d (t.trail.subset hd)) hbefore
    exact ⟨front, hfront.trans t.trail, hrest⟩
  · -- this is the turn in which the socket closes
    have hk := (hbalanced fun d hd => hspoils d (t.trail.subset hd)).turn hsane t hspoils
    obtain ⟨hpending, hflight⟩ := t.closes_drained hsane hbefore hclosed hclose hspoils
    exact ⟨k.trail, List.prefix_rfl, (hsane.turn t).closing.1 (hasked hclose hclosed),
      hk.delivered_eq hpending hflight⟩

end Life

/-! ## Delivery -/

/-- The part of a list that contains its last item is all of it. -/
theorem eq_of_part {α : Type} {front l : List α} {a : α} (h : front <+: l ++ [a]) (ha : a ∈ front)
    (hnot : a ∉ l) : front = l ++ [a] := by
  rcases List.prefix_concat_iff.1 h with hall | hpart
  · exact hall
  · exact absurd (hpart.subset ha) hnot

/-- The deed is one that a program asks for. -/
def Deed.asked : Deed → Bool
  | .send _ => true
  | .close => true
  | .closeWhenDrained => true
  | .handle => true
  | _ => false

theorem Call.asked_success (x : Call) (body : List UInt8) : (x.success body).asked = false := by
  unfold Call.success
  split <;> split <;> rfl

theorem Call.asked_failure (x : Call) : x.failure.asked = false := by
  unfold Call.failure
  split <;> rfl

/-- A task that was asked for is a deed that was asked for. -/
theorem Task.asked_deed? {w : World} {d : Deed} (h : t.deed? w s = some d) : d.asked = t.asked := by
  cases t with
  | succeed c body =>
    obtain ⟨x, -, hx⟩ := Option.bind_eq_some_iff.1 h
    obtain ⟨-, hd⟩ := Option.ite_none_right_eq_some.1 hx
    cases hd
    exact x.asked_success body
  | fail c =>
    obtain ⟨x, -, hx⟩ := Option.bind_eq_some_iff.1 h
    obtain ⟨-, hd⟩ := Option.ite_none_right_eq_some.1 hx
    cases hd
    exact x.asked_failure
  | _ =>
    obtain ⟨-, hd⟩ := Option.ite_none_right_eq_some.1 h
    cases hd
    rfl

/-- What a socket was asked for are the tasks for it that were asked for. -/
theorem History.asked_trail (h : History) (s : Nat) : (h.trail s).filter Deed.asked =
    (h.taken.filter Task.asked).filterMap (Task.deed? h.world s) := by
  rw [trail, List.filter_filterMap, List.filterMap_filter]
  refine List.filterMap_congr fun t _ => ?_
  cases hd : t.deed? h.world s with
  | none => simp
  | some d => simp [Option.filter, Task.asked_deed? hd]

/-- Messages that are among the deeds are among those that were asked for. -/
theorem filterMap_sent?_asked (trail : List Deed) :
    (trail.filter Deed.asked).filterMap Deed.sent? = trail.filterMap Deed.sent? := by
  rw [List.filterMap_filter]
  refine List.filterMap_congr fun d _ => ?_
  cases d <;> rfl

namespace Life

variable {l : Life}

/-- A socket that has delivered all messages up to a point after which none was sent. -/
theorem Balanced.drained (h : l.Balanced) {front : List Deed} (hfront : front <+: l.trail)
    (hdone : front.flatMap Deed.delivered = l.sent) :
    l.pending = [] ∧ l.afloat = [] ∧ l.carried = l.sent := by
  obtain ⟨more, hmore⟩ := hfront
  have hdelivered : l.delivered = l.sent ++ more.flatMap Deed.delivered := by
    rw [delivered, ← hmore, List.flatMap_append, hdone]
  have hall : l.sent ++ (more.flatMap Deed.delivered ++ (l.afloat ++ l.pending)) = l.sent := by
    rw [← List.append_assoc, ← hdelivered, ← List.append_assoc, ← h.carried]
    exact h.sent
  have hnone := List.append_right_eq_self.1 hall
  simp only [List.append_eq_nil_iff] at hnone
  obtain ⟨-, hafloat, hpending⟩ := hnone
  refine ⟨hpending, hafloat, ?_⟩
  rw [← h.sent, hpending, List.append_nil]

end Life

/-- A call that is outstanding is afloat. -/
theorem History.batch_of_outstanding {h : History} (hs : Sound h.toBooks h.world) {c : Nat}
    (hc : h.outstanding s c) : h.world.batch c = (h.life s).afloat := by
  have hflight := flight_of_outstanding hs hc
  have hresume : .resume ∉ (h.life s).agenda := by
    intro hmem
    obtain ⟨d, hd, hdone⟩ := (hs.flights.marks s).delivering (mem_jobs.1 hmem)
    obtain ⟨⟨x, hx, rfl⟩, hopen⟩ := hc
    rw [hs.flights.flying hx hopen, Option.some.injEq] at hd
    rw [← hd, hopen] at hdone
    cases hdone
  rw [Life.afloat, if_neg hresume, hflight]
  rfl

/-- What a socket is asked for by messages and the wish to close it once drained. -/
theorem filterMap_deed?_feed (w : World) (s : Nat) (texts : List String) :
    (texts.map (Task.send s) ++ [Task.closeWhenDrained s]).filterMap (Task.deed? w s) =
      texts.map Deed.send ++ [.closeWhenDrained] := by
  have hsends : (texts.map (Task.send s)).filterMap (Task.deed? w s) = texts.map Deed.send := by
    rw [List.filterMap_map, ← List.filterMap_eq_map]
    exact List.filterMap_congr fun text _ => if_pos rfl
  rw [List.filterMap_append, hsends]
  simp [Task.deed?]

/-- A socket that its program feeds with messages and then asks to close once drained. If it is closed,
and no drain has failed, it was asked to send all messages, its calls have carried them, and those that are
outstanding carry nothing. -/
theorem History.Fed.drained {texts : List String} {tasks : List Task} (hf : (run moves).Fed tasks)
    (htasks : tasks <+: texts.map (Task.send s) ++ [.closeWhenDrained s])
    (hclosed : ((run moves).world.socket s).state = .closed)
    (hspoils : ∀ d ∈ (run moves).trail s, d.spoils = false) : let h := run moves
    .closeWhenDrained s ∈ tasks ∧ (∀ c, h.outstanding s c → h.world.batch c = []) ∧
      (h.world.callsOf s).flatMap h.world.batch = texts := by
  intro h
  -- tasks are taken in the order in which they were asked for
  have htaken : h.taken.filter Task.asked <+: tasks := by
    rw [← hf.order, List.filter_append]
    exact List.prefix_append _ _
  have htrail : (h.trail s).filter Deed.asked <+: texts.map Deed.send ++ [.closeWhenDrained] := by
    rw [h.asked_trail s, ← filterMap_deed?_feed h.world s texts]
    exact (htaken.trans htasks).filterMap _
  have hclose : .close ∉ h.trail s := by
    intro hmem
    have hpart := htrail.subset (List.mem_filter.2 ⟨hmem, rfl⟩)
    simp at hpart
  obtain ⟨front, hfront, hasked, hdone⟩ := Life.parted_run moves s hclose hspoils hclosed
  -- the wish to close comes last, so that nothing was asked for after it
  have hlast : Deed.closeWhenDrained ∉ texts.map Deed.send := by simp
  have hsent : ∀ {deeds : List Deed}, .closeWhenDrained ∈ deeds → deeds <+: h.trail s →
      deeds.filterMap Deed.sent? = texts := by
    intro deeds hmem hpart
    have hall := eq_of_part ((hpart.filter _).trans htrail) (List.mem_filter.2 ⟨hmem, rfl⟩) hlast
    rw [← filterMap_sent?_asked, hall, List.filterMap_append]
    simp [Function.comp_def, Deed.sent?]
  have hwhole : (h.life s).sent = texts := hsent (hfront.subset hasked) List.prefix_rfl
  obtain ⟨-, hafloat, hcarried⟩ := (Life.balanced_run moves hspoils).drained hfront
    (by rw [hdone, hsent hasked hfront]; exact hwhole.symm)
  refine ⟨?_, fun c hc => ?_, ?_⟩
  · have hmem : Deed.closeWhenDrained ∈ (h.trail s).filter Deed.asked :=
      List.mem_filter.2 ⟨hfront.subset hasked, rfl⟩
    rw [h.asked_trail s] at hmem
    obtain ⟨t, ht, hdeed⟩ := List.mem_filterMap.1 hmem
    have htask := htaken.subset ht
    rcases List.mem_append.1 (htasks.subset htask) with hsend | hwish
    · obtain ⟨text, -, rfl⟩ := List.mem_map.1 hsend
      simp [Task.deed?] at hdeed
    · rwa [← List.mem_singleton.1 hwish]
  · rw [h.batch_of_outstanding (sound_run moves) hc]
    exact hafloat
  · rw [← h.carried_life s, hcarried, hwhole]

/-- A consumer that is told of the end has a closed socket, if its handshake brought a session. -/
theorem closed_of_occasion (h : .closed ∈ (History.run moves).occasions s)
    (hrefuses : ∀ d ∈ (History.run moves).trail s, d.refuses = false) :
    ((History.run moves).world.socket s).state = .closed := by
  have hrefusals : ((History.run moves).life s).refusals = 0 := by
    rw [Life.refusals, List.countP_eq_zero]
    intro d hd
    rw [hrefuses d hd]
    simp
  have hpos : 0 < ((History.run moves).life s).told .closed :=
    Nat.lt_of_lt_of_le (List.count_pos_iff.2 h) (Nat.le_add_right _ _)
  have htold : ((History.run moves).life s).told .closed =
      (if ((History.run moves).life s).state = .closed then 1 else 0) + 0 :=
    hrefusals ▸ Life.told_closed_run moves s
  by_contra hopen
  rw [htold, if_neg (show ¬((History.run moves).life s).state = .closed from hopen)] at hpos
  exact absurd hpos (Nat.lt_irrefl 0)

end PollSocket.Socket
