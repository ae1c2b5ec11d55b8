import PollSocket.Proofs.Socket.Guarantees
import PollSocket.Proofs.Socket.Lifecycle

set_option autoImplicit false

/-!
# Closing a socket once it is drained

A socket that was asked to close once drained, and that is open, has a call in flight: or else a drain
has failed before it was asked, messages are left and none was sent since. It then stays as it is until
something is sent or it is closed (`drained_or_stranded`). If no drain fails and nobody closes it, it
closes when all messages were carried and answered (`drained_before_closed`).
-/

namespace PollSocket.Socket

variable {d : Deed} {rest : List Job} {batch : List String} {s : Nat}

/-- Message that the deed sends. -/
def Deed.sent? : Deed → Option String
  | .send text => some text
  | _ => none

/-- The deed completes a call. -/
def Deed.completes : Deed → Bool
  | .handshakeSucceeded _ => true
  | .handshakeMalformed _ => true
  | .handshakeFailed => true
  | .drainSucceeded _ _ => true
  | .drainMalformed _ _ => true
  | .drainFailed _ => true
  | _ => false

/-- The deed sends a message or completes a call. -/
def Deed.stirs (d : Deed) : Bool := d.sent?.isSome || d.completes

/-- Messages whose drain is answered by the deed. -/
def Deed.delivered : Deed → List String
  | .drainSucceeded batch _ => batch
  | _ => []

/-- The deed makes a socket that has nothing in flight drain or close. -/
def Deed.rouses : Deed → Bool
  | .send _ => true
  | .close => true
  | _ => false

namespace Life

variable {l k : Life}

/-! ## Open sockets without a call in flight -/

/-- A drain has come to nothing, and nothing was sent or completed since. If the socket is to close once
drained, it is about to notice, or it was asked to later and messages are left. -/
def Lulled (l : Life) : Prop :=
  ∃ before d after, l.trail = before ++ d :: after ∧ d.spoils = true ∧ (∀ e ∈ after, e.stirs = false) ∧
    (l.closing = true → .closeIfClosing ∈ l.agenda ∨ l.pending ≠ [] ∧ .closeWhenDrained ∉ before)

/-- An open socket that has nothing in flight is about to drain or waits. -/
def Watchful (l : Life) : Prop := l.state = .opened → l.flight = none → .begin ∈ l.agenda ∨ l.Lulled

theorem flight_drain (h : l.drain.state = .opened) : l.drain.flight ≠ none := by
  unfold drain at h ⊢
  split
  · simp [issue]
  next hcond =>
    rw [if_neg hcond] at h
    exact fun hnone => hcond ⟨h, hnone⟩

namespace Watchful

theorem of_state (h : l.state ≠ .opened) : l.Watchful := fun hopened => absurd hopened h

theorem of_flight (h : l.flight ≠ none) : l.Watchful := fun _ hnone => absurd hnone h

theorem drain (l : Life) : l.drain.Watchful := fun hopened hnone => absurd hnone (flight_drain hopened)

variable (h : l.Watchful)
include h

/-- Something else than a message is sent, and other jobs come and go. -/
theorem keep (hstate : k.state = l.state) (hflight : k.flight = l.flight)
    (hclosing : k.closing = l.closing) (hpending : k.pending = l.pending) {deeds : List Deed}
    (htrail : k.trail = l.trail ++ deeds) (hdeeds : ∀ e ∈ deeds, e.stirs = false)
    (hbegin : .begin ∈ l.agenda → .begin ∈ k.agenda)
    (hregret : k.closing = true → .closeIfClosing ∈ l.agenda → .closeIfClosing ∈ k.agenda) :
    k.Watchful := by
  intro hopened hnone
  rcases h (hstate.symm.trans hopened) (hflight.symm.trans hnone) with
    hmem | ⟨before, d, after, heq, hspoils, hquiet, hwait⟩
  · exact Or.inl (hbegin hmem)
  · refine Or.inr ⟨before, d, after ++ deeds, by simp [htrail, heq], hspoils,
      List.forall_mem_append.2 ⟨hquiet, hdeeds⟩, fun hk => ?_⟩
    rw [hpending]
    exact (hwait (hclosing.symm.trans hk)).imp_left (hregret hk)

theorem closeIfDrained : l.closeIfDrained.Watchful := by
  unfold Life.closeIfDrained
  split
  · exact of_state (by simp [Life.close])
  · exact h

/-- The socket is asked to close once drained. -/
theorem asked (hl : l.Sane) : (({ l with
    trail := l.trail ++ [.closeWhenDrained] } : Life).execute .closeWhenDrained).Watchful := by
  intro hopened hnone
  simp only [execute] at hopened hnone ⊢
  unfold Life.closeIfDrained at hopened hnone ⊢
  split at hopened
  · cases hopened
  next hcond =>
    rw [if_neg hcond] at hnone ⊢
    -- it does not close although nothing is in flight, so messages are left
    have hpending : l.pending ≠ [] := fun hnil => hcond ⟨rfl, hopened, hnil, Or.inl hnone⟩
    rcases h hopened hnone with hmem | ⟨before, d, after, heq, hspoils, hquiet, hwait⟩
    · exact Or.inl hmem
    · refine Or.inr ⟨before, d, after ++ [.closeWhenDrained], by simp [heq], hspoils,
        List.forall_mem_append.2 ⟨hquiet, List.forall_mem_singleton.2 rfl⟩, fun _ => ?_⟩
      by_cases hclosing : l.closing = true
      · exact hwait hclosing
      · refine Or.inr ⟨hpending, fun hmem => hclosing (hl.closing.2 ?_)⟩
        rw [heq]
        exact List.mem_append_left _ hmem

theorem execute (hl : l.Sane) (hd : l.Allows d) :
    (({ l with trail := l.trail ++ [d] } : Life).execute d).Watchful := by
  have hgreeting : l.flight = some none → l.state ≠ .opened :=
    fun hflight => (hl.stage.greeting_of_flight hflight).2.2.1
  cases d with
  | establish => exact of_flight (by simp [Life.execute, issue])
  | send text =>
    simp only [Life.execute]
    split
    next hcond =>
      -- the message only waits if a call is in flight or there is no session
      rw [Bool.or_eq_true] at hcond
      rcases hcond with hsome | hsession
      · refine of_flight fun hnone => ?_
        rw [show l.flight = none from hnone] at hsome
        cases hsome
      · refine of_state fun hopened => ?_
        obtain ⟨id, -, -, -, hid, -⟩ := hl.stage.accepted_of_opened hopened
        rw [show l.session = .assigned id from hid] at hsession
        cases hsession
    next => exact drain _
  | close => exact of_state (by simp [Life.execute, Life.close])
  | closeWhenDrained => exact h.asked hl
  | handle => exact h.keep rfl rfl rfl rfl rfl (List.forall_mem_singleton.2 rfl) id fun _ => id
  | handshakeSucceeded id =>
    simp only [Life.execute]
    split
    · exact fun _ _ => Or.inl (by simp [push])
    · exact of_state (hgreeting hd.1)
  | handshakeMalformed reason | handshakeFailed => exact of_state (hgreeting hd.1)
  | drainSucceeded batch messages =>
    refine of_flight ?_
    show l.flight ≠ none
    rw [hd.1]
    simp
  | drainMalformed batch reason =>
    intro _ _
    exact Or.inr ⟨l.trail, .drainMalformed batch reason, [], rfl, rfl, by simp,
      fun _ => Or.inl (by simp [Life.execute, push])⟩
  | drainFailed batch =>
    simp only [Life.execute]
    split
    · exact of_state (by simp [Life.close])
    next hclosing =>
      exact fun _ _ => Or.inr ⟨l.trail, .drainFailed batch, [], rfl, rfl, by simp,
        fun hk => absurd hk hclosing⟩

theorem discharge {j : Job} (hj : l.agenda = j :: rest) :
    (({ l with agenda := rest } : Life).discharge j).Watchful := by
  have hmem : ∀ {i : Job}, i ≠ j → i ∈ l.agenda → i ∈ rest := by
    intro i hne hi
    rw [hj, List.mem_cons] at hi
    exact hi.resolve_left hne
  cases j with
  | emit event =>
    exact h.keep rfl rfl rfl rfl (List.append_nil _).symm (by simp) (hmem (by simp))
      fun _ => hmem (by simp)
  | dispatch messages =>
    have hpopped : ({ l with agenda := rest } : Life).Watchful :=
      h.keep rfl rfl rfl rfl (List.append_nil _).symm (by simp) (hmem (by simp)) fun _ => hmem (by simp)
    cases messages with
    | nil => exact hpopped
    | cons m more =>
      exact hpopped.keep rfl rfl rfl rfl (List.append_nil _).symm (by simp)
        (List.mem_append_right _) fun _ => List.mem_append_right _
  | resume | begin => exact closeIfDrained (drain _)
  | closeIfClosing =>
    simp only [Life.discharge]
    split
    · exact of_state (by simp [Life.close])
    next hclosing =>
      exact h.keep rfl rfl rfl rfl (List.append_nil _).symm (by simp) (hmem (by simp))
        fun hk => absurd hk hclosing

theorem turn (hl : l.Sane) (t : l.Turn k) : k.Watchful := by
  cases t with
  | rest => exact h
  | created requeue =>
    exact h.keep rfl rfl rfl rfl (List.append_nil _).symm (by simp) id fun _ => id
  | deed d hd => exact h.execute hl hd
  | job j rest hj => exact h.discharge hj
  | caught =>
    exact h.keep rfl rfl rfl rfl (List.append_nil _).symm (by simp) (List.mem_append_right _)
      fun _ => List.mem_append_right _

end Watchful

theorem watchful_run (moves : List Move) (s : Nat) : ((History.run moves).life s).Watchful := by
  have hboth : ((History.run moves).life s).Sane ∧ ((History.run moves).life s).Watchful := by
    refine holds_run (P := fun l => l.Sane ∧ l.Watchful) ⟨sane_run [] 0, Watchful.of_state (by simp)⟩
      (fun h t => ⟨h.1.turn t, h.2.turn h.1 t⟩) moves s
  exact hboth.2

/-- In particular nothing was sent since the drain came to nothing. -/
theorem alert_run (moves : List Move) (s : Nat) (hopened : ((History.run moves).life s).state = .opened)
    (hfree : ((History.run moves).life s).flight = none) : let l := (History.run moves).life s
    .begin ∈ l.agenda ∨ ∃ before d after, l.trail = before ++ d :: after ∧ d.spoils = true ∧
      (∀ text, .send text ∉ after) ∧
      (l.closing = true → .closeIfClosing ∈ l.agenda ∨ l.pending ≠ [] ∧ .closeWhenDrained ∉ before) := by
  refine (watchful_run moves s hopened hfree).imp_right ?_
  rintro ⟨before, d, after, htrail, hspoils, hquiet, hwait⟩
  exact ⟨before, d, after, htrail, hspoils, fun text hmem => Bool.noConfusion (hquiet _ hmem), hwait⟩

/-! ## Stranded sockets -/

/-- What is kept by every turn in which only such things are done as `Q` allows stays as long as nothing
else is done. -/
theorem kept_since {P : Life → Prop} {Q : Deed → Prop}
    (hturn : ∀ {l k : Life}, l.Sane → P l → l.Turn k → (∀ d ∈ k.trail.drop l.trail.length, Q d) → P k)
    (moves more : List Move) (h : P ((History.run moves).life s))
    (hdeeds : ∀ d ∈ ((History.run (moves ++ more)).trail s).drop
      ((History.run moves).trail s).length, Q d) :
    P ((History.run (moves ++ more)).life s) := by
  set l := (History.run moves).life s
  -- the invariant speaks of all deeds since `l`, so those of a turn are split off at its end
  have hsince : ∀ {i j : Life}, (i.Sane ∧ l.trail <+: i.trail ∧
      ((∀ d ∈ i.trail.drop l.trail.length, Q d) → P i)) → i.Turn j →
      j.Sane ∧ l.trail <+: j.trail ∧ ((∀ d ∈ j.trail.drop l.trail.length, Q d) → P j) := by
    rintro i j ⟨hsane, hfront, hi⟩ t
    refine ⟨hsane.turn t, hfront.trans t.trail, fun hj => ?_⟩
    obtain ⟨first, hfirst⟩ := hfront
    obtain ⟨next, hnext⟩ := t.trail
    rw [← hnext, ← hfirst, List.append_assoc, List.drop_left] at hj
    apply hturn hsane (hi fun d hd => ?_) t fun d hd => ?_
    · rw [← hfirst, List.drop_left] at hd
      exact hj d (List.mem_append_left _ hd)
    · rw [← hnext, List.drop_left] at hd
      exact hj d (List.mem_append_right _ hd)
  exact (kept_run hsince moves more ⟨sane_run moves s, List.prefix_rfl, fun _ => h⟩).2.2 hdeeds

/-- The socket is open, nothing is in flight, and nothing is planned but to call the consumer. -/
structure Resting (l : Life) : Prop where
  state : l.state = .opened
  flight : l.flight = none
  idle : ∀ j ∈ l.agenda, ∃ event, j = .emit event

/-- Until a message is sent, a resting socket stays as it is or closes: if it is told to, or if it is asked to
close once drained and no message is left. -/
theorem Resting.turn (h : l.Resting) (hl : l.Sane) (t : l.Turn k)
    (hdeeds : ∀ d ∈ k.trail.drop l.trail.length, d.sent? = none) :
    (k.state = .closed ∧ (.close ∈ k.trail.drop l.trail.length ∨ l.pending = [])) ∨
      k.Resting ∧ k.pending = l.pending ∧ k.issued = l.issued := by
  obtain ⟨hstate, hflight, hidle⟩ := h
  have hstays : ∀ {k : Life}, k.state = l.state → k.flight = l.flight → k.pending = l.pending →
      k.issued = l.issued → (∀ j ∈ k.agenda, ∃ event, j = .emit event) →
      k.Resting ∧ k.pending = l.pending ∧ k.issued = l.issued := by
    intro k hs hf hp hi hidle
    exact ⟨⟨hs.trans hstate, hf.trans hflight, hidle⟩, hp, hi⟩
  cases t with
  | rest | created => exact Or.inr (hstays rfl rfl rfl rfl hidle)
  | caught =>
    refine Or.inr (hstays rfl rfl rfl rfl fun j hj => ?_)
    rcases List.mem_append.1 hj with hj | hj
    · exact ⟨_, List.mem_singleton.1 hj⟩
    · exact hidle j hj
  | job j rest hj =>
    obtain ⟨event, rfl⟩ := hidle j (by rw [hj]; exact List.mem_cons_self)
    refine Or.inr (hstays rfl rfl rfl rfl fun i hi => hidle i ?_)
    rw [hj]
    exact List.mem_cons_of_mem _ hi
  | deed d hd =>
    have hmem : d ∈ (({ l with trail := l.trail ++ [d] } : Life).execute d).trail.drop l.trail.length := by
      rw [trail_execute]
      simp
    have hd' := hdeeds d hmem
    cases d with
    | establish =>
      -- a socket that is open has had its handshake
      obtain ⟨-, -, -, hconnecting⟩ := hl.stage.untouched hd
      cases hconnecting.symm.trans hstate
    | send => cases hd'
    | close => exact Or.inl ⟨rfl, Or.inl hmem⟩
    | closeWhenDrained =>
      simp only [execute, closeIfDrained]
      split
      next hcond => exact Or.inl ⟨rfl, Or.inr hcond.2.2.1⟩
      next => exact Or.inr (hstays rfl rfl rfl rfl hidle)
    | handle => exact Or.inr (hstays rfl rfl rfl rfl hidle)
    | _ =>
      -- nothing is in flight that could be completed
      obtain ⟨hsome, -⟩ := hd
      cases hflight.symm.trans hsome

/-- The socket is open and has messages, but nothing is in flight and nothing planned that would drain
or close it. -/
structure Stranded (l : Life) : Prop where
  state : l.state = .opened
  flight : l.flight = none
  pending : l.pending ≠ []
  idle : ∀ j ∈ l.agenda, ∃ event, j = .emit event

/-- A stranded socket stays as it is until something is sent or it is closed. -/
theorem Stranded.turn (h : l.Stranded) (hl : l.Sane) (t : l.Turn k)
    (hdeeds : ∀ d ∈ k.trail.drop l.trail.length, d.rouses = false) :
    k.Stranded ∧ k.pending = l.pending ∧ k.issued = l.issued := by
  have hsends : ∀ d ∈ k.trail.drop l.trail.length, d.sent? = none := by
    intro d hd
    cases d with
    | send text => cases hdeeds _ hd
    | _ => rfl
  rcases Resting.turn ⟨h.state, h.flight, h.idle⟩ hl t hsends with
    ⟨-, hclose | hnil⟩ | ⟨hrests, hpending, hissued⟩
  · cases hdeeds _ hclose
  · exact absurd hnil h.pending
  · exact ⟨⟨hrests.state, hrests.flight, by rw [hpending]; exact h.pending, hrests.idle⟩, hpending, hissued⟩

/-- So it is still stranded however the history goes on. -/
theorem stranded_run (moves more : List Move)
    (h : ((History.run moves).life s).Stranded)
    (hdeeds : ∀ d ∈ ((History.run (moves ++ more)).trail s).drop
      ((History.run moves).trail s).length, d.rouses = false) :
    let l := (History.run moves).life s
    let k := (History.run (moves ++ more)).life s
    k.Stranded ∧ k.pending = l.pending ∧ k.issued = l.issued := by
  intro l k
  refine kept_since (P := fun i => i.Stranded ∧ i.pending = l.pending ∧ i.issued = l.issued) ?_ moves
    more ⟨h, rfl, rfl⟩ hdeeds
  rintro i j hsane ⟨hstranded, hpending, hissued⟩ t hquiet
  obtain ⟨hstranded', hpending', hissued'⟩ := hstranded.turn hsane t hquiet
  exact ⟨hstranded', hpending'.trans hpending, hissued'.trans hissued⟩

end Life

/-- An open socket that was asked to close once drained has a call outstanding whenever no task is being
executed; or a drain has failed before it was asked, messages are left and none was sent since. An open
socket that has messages, but nothing in flight, stays so until something is sent or it is closed. -/
theorem drained_or_stranded (moves : List Move) (s : Nat) :
    let h := History.run moves
    let x := h.world.socket s
    h.world.idle = true → x.state = .opened →
      (.closeWhenDrained ∈ h.trail s →
        (∃ c, x.inflight = some c ∧ h.outstanding s c) ∨
        x.inflight = none ∧ x.pending ≠ [] ∧ ∃ before d after, h.trail s = before ++ d :: after ∧
          d.spoils = true ∧ .closeWhenDrained ∉ before ∧ ∀ text, .send text ∉ after) ∧
      (x.inflight = none → x.pending ≠ [] → ∀ more,
        let k := History.run (moves ++ more)
        (∀ d ∈ (k.trail s).drop (h.trail s).length, d.rouses = false) →
        (k.world.socket s).state = .opened ∧ (k.world.socket s).inflight = none ∧
          (k.world.socket s).pending = x.pending ∧ k.world.callsOf s = h.world.callsOf s) := by
  intro h x hidle hopened
  have hagenda : (h.life s).agenda = [] := agenda_of_idle hidle s
  constructor
  · intro hasked
    cases hmark : x.inflight with
    | some c =>
      have hin : c ∈ (h.world.callsOf s).filter fun c => !completed h.taken c := by
        rw [((sound_run moves).flights.marks s).outstanding (not_resume_of_idle hidle s)]
        exact Option.mem_toList.2 hmark
      rw [List.mem_filter, Bool.not_eq_true'] at hin
      exact Or.inl ⟨c, rfl, World.mem_callsOf.1 hin.1, hin.2⟩
    | none =>
      right
      have hfree : (h.life s).flight = none := World.flight_life_eq_none.2 hmark
      have hclosing : (h.life s).closing = true := (sane_run moves s).closing.2 hasked
      rcases Life.alert_run moves s hopened hfree with hmem | ⟨before, d, after, heq, hd, hsend, hwait⟩
      · rw [hagenda] at hmem
        cases hmem
      · rcases hwait hclosing with hmem | ⟨hpending, hbefore⟩
        · rw [hagenda] at hmem
          cases hmem
        · exact ⟨rfl, hpending, before, d, after, heq, hd, hbefore, hsend⟩
  · intro hnone hpending more k hdeeds
    have hstranded : (h.life s).Stranded :=
      ⟨hopened, World.flight_life_eq_none.2 hnone, hpending, by simp [hagenda]⟩
    obtain ⟨⟨hstate, hfree, -, -⟩, hsame, hissued⟩ := Life.stranded_run moves more hstranded hdeeds
    exact ⟨hstate, World.flight_life_eq_none.1 hfree, hsame, callsOf_eq (keeps_run moves more) hissued⟩

/-- A run in which the first drain fails before the socket is asked to close once drained. -/
def lateClosing : List Move :=
  [.create { address := "ws://host", requeue := true }, .post 0 (.send "a"), .drive, .step, .step,
    .step, .succeed 0 (handshakeResponseBody "id"), .drive, .step, .step, .step, .step, .fail 1,
    .drive, .step, .step, .post 0 .closeWhenDrained, .drive, .step, .step]

/-- A socket that is to close once drained may have nothing in flight. -/
theorem stranded_lateClosing :
    let h := History.run lateClosing
    h.world.idle = true ∧ .closeWhenDrained ∈ h.trail 0 ∧ (h.world.socket 0).state = .opened ∧
      (h.world.socket 0).inflight = none := by decide

theorem drained_or_stranded_lateClosing :
    let h := History.run lateClosing
    let k := History.run (lateClosing ++ [.post 0 .closeWhenDrained, .drive, .step, .step])
    h.world.idle = true ∧ (h.world.socket 0).state = .opened ∧ (h.world.socket 0).inflight = none ∧
      (h.world.socket 0).pending ≠ [] ∧ (k.trail 0).length = 6 ∧
      (k.world.socket 0).state = .opened ∧ (k.world.socket 0).inflight = none ∧
        (k.world.socket 0).pending = (h.world.socket 0).pending ∧
        k.world.callsOf 0 = h.world.callsOf 0 := by
  intro h k
  have hidle : h.world.idle = true := by decide +kernel
  have hopened : (h.world.socket 0).state = .opened := by decide +kernel
  have hnone : (h.world.socket 0).inflight = none := by decide +kernel
  have hpending : (h.world.socket 0).pending ≠ [] := by decide +kernel
  have hdeeds : ∀ d ∈ (k.trail 0).drop (h.trail 0).length, d.rouses = false := by decide +kernel
  have hlength : (k.trail 0).length = 6 := by decide +kernel
  have hkept := (drained_or_stranded lateClosing 0 hidle hopened).2 hnone hpending
    [.post 0 .closeWhenDrained, .drive, .step, .step] hdeeds
  exact ⟨hidle, hopened, hnone, hpending, hlength, hkept⟩

/-! ## Closing without a loss -/

namespace Life

variable {l k : Life}

def sent (l : Life) : List String := l.trail.filterMap Deed.sent?

/-- Messages of all calls. -/
def carried (l : Life) : List String := l.issued.flatMap (·.getD [])

/-- Messages of the drains that were answered. -/
def delivered (l : Life) : List String := l.trail.flatMap Deed.delivered

/-- Messages of the call in flight, unless its response is being delivered. -/
def afloat (l : Life) : List String := if .resume ∈ l.agenda then [] else l.flight.join.getD []

/-- No message is lost: each is carried or waits, and what is carried was answered or is in flight. -/
structure Balanced (l : Life) : Prop where
  carried : l.carried = l.delivered ++ l.afloat
  sent : l.carried ++ l.pending = l.sent

theorem carried_issue (l : Life) (batch : Option (List String)) :
    (l.issue batch).carried = l.carried ++ batch.getD [] := by
  simp [carried, issue]

theorem afloat_of_none (h : l.flight = none) : l.afloat = [] := by
  unfold afloat
  rw [h]
  split <;> rfl

theorem afloat_of_handshake (h : l.flight = some none) : l.afloat = [] := by
  unfold afloat
  rw [h]
  split <;> rfl

theorem afloat_of_drain (h : l.flight = some (some batch)) (hresume : .resume ∉ l.agenda) :
    l.afloat = batch := by
  rw [afloat, if_neg hresume, h]
  rfl

namespace Balanced

variable (h : l.Balanced)
include h

/-- Something is done that neither sends a message nor answers a drain. -/
theorem did (hsent : d.sent? = none) (hdelivered : d.delivered = []) :
    ({ l with trail := l.trail ++ [d] } : Life).Balanced := by
  constructor
  · show l.carried = (l.trail ++ [d]).flatMap Deed.delivered ++ l.afloat
    rw [List.flatMap_append, List.flatMap_singleton, hdelivered, List.append_nil]
    exact h.carried
  · show l.carried ++ l.pending = (l.trail ++ [d]).filterMap Deed.sent?
    rw [List.filterMap_append, List.filterMap_cons_none hsent, List.filterMap_nil, List.append_nil]
    exact h.sent

/-- Neither messages nor calls are touched. -/
theorem keep (hissued : k.issued = l.issued) (hflight : k.flight = l.flight)
    (hpending : k.pending = l.pending) (htrail : k.trail = l.trail)
    (hresume : .resume ∈ k.agenda ↔ .resume ∈ l.agenda) : k.Balanced := by
  have hcarried : k.carried = l.carried := by
    rw [Life.carried, hissued]
    rfl
  have hdelivered : k.delivered = l.delivered := congrArg (List.flatMap Deed.delivered) htrail
  have hsent : k.sent = l.sent := congrArg (List.filterMap Deed.sent?) htrail
  have hafloat : k.afloat = l.afloat := by
    unfold afloat
    rw [hflight]
    by_cases hmem : .resume ∈ l.agenda
    · rw [if_pos hmem, if_pos (hresume.2 hmem)]
    · rw [if_neg hmem, if_neg fun hk => hmem (hresume.1 hk)]
  constructor
  · rw [hcarried, hdelivered, hafloat]
    exact h.carried
  · rw [hcarried, hpending, hsent]
    exact h.sent

/-- The call in flight, which carries nothing or was answered, has come to its end. -/
theorem land (hnone : l.afloat = []) : l.land.Balanced := by
  constructor
  · rw [afloat_of_none (l := l.land) rfl, ← hnone]
    exact h.carried
  · exact h.sent

theorem push {jobs : List Job} (hjobs : .resume ∉ jobs) : (l.push jobs).Balanced :=
  h.keep rfl rfl rfl rfl ⟨fun hmem => (List.mem_append.1 hmem).resolve_left hjobs,
    List.mem_append_right _⟩

theorem close : l.close.Balanced := by
  refine h.keep rfl rfl rfl rfl ?_
  unfold Life.close
  split <;> simp

theorem closeIfDrained : l.closeIfDrained.Balanced := by
  unfold Life.closeIfDrained
  split
  · exact h.close
  · exact h

/-- All messages that wait are carried by the next drain. -/
theorem drain (hl : l.Sane) : l.drain.Balanced := by
  by_cases hcond : l.state = .opened ∧ l.flight = none
  · rw [drain_eq_issue hcond.1 hcond.2]
    -- nothing is delivered while nothing is in flight
    have hresume : .resume ∉ l.agenda := by
      intro hmem
      obtain ⟨batch, hflight⟩ := hl.delivering hmem
      rw [hcond.2] at hflight
      cases hflight
    set k := ({ l with pending := [], outbound := l.pending.length } : Life).issue (some l.pending)
    have hcarried : k.carried = l.carried ++ l.pending := carried_issue _ _
    have hafloat : k.afloat = l.pending := afloat_of_drain rfl hresume
    constructor
    · calc k.carried
        _ = (l.delivered ++ l.afloat) ++ l.pending := by rw [hcarried, h.carried]
        _ = k.delivered ++ k.afloat := by
          rw [afloat_of_none hcond.2, List.append_nil, hafloat]
          rfl
    · rw [hcarried, h.sent]
      exact List.append_nil _
  · rw [drain_eq_self hcond]
    exact h

theorem establish (hfree : l.flight = none) : (l.issue none).Balanced := by
  have hcarried : (l.issue none).carried = l.carried :=
    (carried_issue l none).trans (List.append_nil _)
  constructor
  · rw [hcarried, afloat_of_handshake (l := l.issue none) rfl, h.carried, afloat_of_none hfree]
    rfl
  · rw [hcarried]
    exact h.sent

theorem send (text : String) : ({ l with
    trail := l.trail ++ [.send text], pending := l.pending ++ [text] } : Life).Balanced := by
  constructor
  · show l.carried = (l.trail ++ [Deed.send text]).flatMap Deed.delivered ++ l.afloat
    rw [List.flatMap_append, List.flatMap_singleton, show (Deed.send text).delivered = [] from rfl,
      List.append_nil]
    exact h.carried
  · show l.carried ++ (l.pending ++ [text]) = (l.trail ++ [Deed.send text]).filterMap Deed.sent?
    rw [List.filterMap_append, ← List.append_assoc, h.sent]
    rfl

/-- A drain is answered: what it carries is delivered. -/
theorem answer (hflight : l.flight = some (some batch)) (hresume : .resume ∉ l.agenda)
    (messages : List String) : (({ l with
      trail := l.trail ++ [.drainSucceeded batch messages] } : Life).push
        [.dispatch messages, .resume]).Balanced := by
  set k := ({ l with trail := l.trail ++ [.drainSucceeded batch messages] } : Life).push
    [.dispatch messages, .resume] with hk
  have hafloat : k.afloat = [] := if_pos (by simp [hk, Life.push])
  have hdelivered : k.delivered = l.delivered ++ batch := by
    show (l.trail ++ [Deed.drainSucceeded batch messages]).flatMap Deed.delivered = _
    rw [List.flatMap_append, List.flatMap_singleton]
    rfl
  constructor
  · rw [hafloat, List.append_nil, hdelivered, ← afloat_of_drain hflight hresume]
    exact h.carried
  · show l.carried ++ l.pending = (l.trail ++ [Deed.drainSucceeded batch messages]).filterMap Deed.sent?
    rw [List.filterMap_append, h.sent]
    exact (List.append_nil _).symm

theorem execute (hl : l.Sane) (hd : l.Allows d) (hprompt : .emit .opened ∉ l.agenda)
    (hspoils : d.spoils = false) : (({ l with trail := l.trail ++ [d] } : Life).execute d).Balanced := by
  have hdid := fun hsent hdelivered => h.did (d := d) hsent hdelivered
  cases d with
  | establish =>
    obtain ⟨-, hfree, -⟩ := hl.stage.untouched hd
    exact (hdid rfl rfl).establish hfree
  | send text =>
    simp only [Life.execute]
    split
    · exact h.send text
    · exact (h.send text).drain ((hl.did hprompt (d := .send text) rfl (by simp)).queue _)
  | close => exact (hdid rfl rfl).close
  | closeWhenDrained => exact closeIfDrained ((hdid rfl rfl).keep rfl rfl rfl rfl Iff.rfl)
  | handle => exact hdid rfl rfl
  | handshakeSucceeded id =>
    have hlanded := (hdid rfl rfl).land (afloat_of_handshake hd.1)
    simp only [Life.execute]
    split
    · refine push (hlanded.keep ?_ ?_ ?_ ?_ ?_) (by simp) <;> rfl
    · exact hlanded.keep rfl rfl rfl rfl Iff.rfl
  | handshakeMalformed | handshakeFailed =>
    exact ((hdid rfl rfl).land (afloat_of_handshake hd.1)).push (by simp)
  | drainSucceeded batch messages => exact h.answer hd.1 hd.2 messages
  | drainMalformed | drainFailed => cases hspoils

theorem discharge (hl : l.Sane) {j : Job} (hj : l.agenda = j :: rest)
    (hprompt : .emit .opened ∉ rest) : (({ l with agenda := rest } : Life).discharge j).Balanced := by
  have hpopped : j ≠ .resume → ({ l with agenda := rest } : Life).Balanced := by
    intro hne
    refine h.keep rfl rfl rfl rfl ?_
    rw [hj, List.mem_cons]
    exact ⟨Or.inr, fun hmem => hmem.resolve_left hne.symm⟩
  cases j with
  | emit event => exact (hpopped (by simp)).keep rfl rfl rfl rfl Iff.rfl
  | dispatch messages =>
    cases messages with
    | nil => exact hpopped (by simp)
    | cons m more => exact (hpopped (by simp)).push (by simp)
  | resume =>
    have hlanded : ({ l with agenda := rest } : Life).land.Balanced := by
      constructor
      · have hafloat : l.afloat = [] := if_pos (by rw [hj]; exact List.mem_cons_self)
        rw [afloat_of_none (l := ({ l with agenda := rest } : Life).land) rfl, ← hafloat]
        exact h.carried
      · exact h.sent
    exact (hlanded.drain (hl.pop_resume hj hprompt)).closeIfDrained
  | begin => exact ((hpopped (by simp)).drain (hl.pop hj (by simp) hprompt)).closeIfDrained
  | closeIfClosing =>
    simp only [Life.discharge]
    split
    · exact (hpopped (by simp)).close
    · exact hpopped (by simp)

theorem turn (hl : l.Sane) (t : l.Turn k) (hspoils : ∀ d ∈ k.trail, d.spoils = false) : k.Balanced := by
  cases t with
  | rest => exact h
  | created => exact h.keep rfl rfl rfl rfl Iff.rfl
  | deed d hd hprompt => exact h.execute hl hd hprompt (hspoils d (by rw [trail_execute]; simp))
  | job j rest hj hprompt => exact h.discharge hl hj hprompt
  | caught => exact h.push (by simp)

end Balanced

/-- As long as no drain fails, messages are balanced. -/
theorem balanced_run (moves : List Move) (hspoils : ∀ d ∈ (History.run moves).trail s, d.spoils = false) :
    ((History.run moves).life s).Balanced := by
  have hboth : ((History.run moves).life s).Sane ∧
      ((∀ d ∈ ((History.run moves).life s).trail, d.spoils = false) →
        ((History.run moves).life s).Balanced) := by
    refine holds_run (P := fun l => l.Sane ∧ ((∀ d ∈ l.trail, d.spoils = false) → l.Balanced))
      ⟨sane_run [] 0, fun _ => ⟨rfl, rfl⟩⟩ (fun {l k} ⟨hsane, hl⟩ t => ⟨hsane.turn t, fun hk => ?_⟩)
      moves s
    exact (hl fun d hd => hk d (t.trail.subset hd)).turn hsane t hk
  exact hboth.2 hspoils

/-! ## The moment of closing -/

/-- The socket closes only when nothing waits and the call in flight carries nothing. -/
theorem closeIfDrained_closes (hweighed : ∀ batch, l.flight = some (some batch) → l.outbound = batch.length)
    (hnot : l.state ≠ .closed) (hclosed : l.closeIfDrained.state = .closed) :
    l.closeIfDrained.pending = [] ∧ ∀ batch, l.closeIfDrained.flight = some (some batch) → batch = [] := by
  by_cases hcond : l.closing ∧ l.state = .opened ∧ l.pending = [] ∧ (l.flight = none ∨ l.outbound = 0)
  · rw [closeIfDrained_eq_close hcond.1 hcond.2.1 hcond.2.2.1 hcond.2.2.2]
    obtain ⟨-, -, hpending, hflight⟩ := hcond
    refine ⟨hpending, fun batch hbatch => ?_⟩
    rcases hflight with hnone | hzero
    · cases hnone.symm.trans hbatch
    · -- a call may be in flight still, but it carries no message
      rw [hweighed batch hbatch] at hzero
      exact List.length_eq_zero_iff.1 hzero
  · rw [closeIfDrained_eq_self hcond] at hclosed
    exact absurd hclosed hnot

theorem state_drain (l : Life) : l.drain.state = l.state := by
  unfold drain
  split <;> rfl

/-- A turn that closes a socket which nobody closes, and no drain of which fails. -/
theorem Turn.closes_drained (t : l.Turn k) (hl : l.Sane) (hnot : l.state ≠ .closed)
    (hclosed : k.state = .closed) (hclose : .close ∉ k.trail)
    (hspoils : ∀ d ∈ k.trail, d.spoils = false) :
    k.pending = [] ∧ ∀ batch, k.flight = some (some batch) → batch = [] := by
  cases t with
  | rest | created | caught => exact absurd hclosed hnot
  | deed d hd =>
    have hmem : d ∈ (({ l with trail := l.trail ++ [d] } : Life).execute d).trail := by
      rw [trail_execute]
      simp
    cases d with
    | send text =>
      simp only [execute] at hclosed
      split at hclosed
      · exact absurd hclosed hnot
      · rw [state_drain] at hclosed
        exact absurd hclosed hnot
    | close => exact absurd hmem hclose
    | closeWhenDrained => exact closeIfDrained_closes (fun batch => hl.weighed batch) hnot hclosed
    | handshakeSucceeded id =>
      simp only [execute] at hclosed
      split at hclosed
      · cases hclosed
      · exact absurd hclosed hnot
    | drainMalformed | drainFailed => cases hspoils _ hmem
    | _ =>
      exact absurd hclosed hnot
  | job j rest hj hprompt =>
    cases j with
    | emit event => exact absurd hclosed hnot
    | dispatch messages => cases messages <;> exact absurd hclosed hnot
    | resume =>
      exact closeIfDrained_closes (hl.pop_resume hj hprompt).drain.weighed
        (by rw [state_drain]; exact hnot) hclosed
    | begin =>
      exact closeIfDrained_closes (hl.pop hj (by simp) hprompt).drain.weighed
        (by rw [state_drain]; exact hnot) hclosed
    | closeIfClosing =>
      -- this job comes with a malformed answer
      obtain ⟨d, hd, hbad⟩ := hl.regret (by rw [hj]; exact List.mem_cons_self)
      rw [hspoils d (by rw [trail_discharge]; exact hd)] at hbad
      cases hbad

end Life

theorem Call.sent?_success (x : Call) (body : List UInt8) : (x.success body).sent? = none := by
  unfold Call.success
  split <;> split <;> rfl

theorem Call.sent?_failure (x : Call) : x.failure.sent? = none := by
  unfold Call.failure
  split <;> rfl

/-- A task sends a message on a socket if its deed there does. -/
theorem Task.sent?_deed? (w : World) (s : Nat) (t : Task) :
    (t.deed? w s).bind Deed.sent? = t.sentOn? s := by
  cases t with
  | send r | establish r | close r | closeWhenDrained r | handle r =>
    by_cases hr : r = s <;> simp [Task.deed?, Task.sentOn?, hr, Deed.sent?]
  | succeed c body =>
    show (w.calls[c]?.bind _).bind _ = none
    cases w.calls[c]? with
    | none => rfl
    | some x => simp [x.sent?_success body]
  | fail c =>
    show (w.calls[c]?.bind _).bind _ = none
    cases w.calls[c]? with
    | none => rfl
    | some x => simp [x.sent?_failure]

namespace History

theorem sent_life (h : History) (s : Nat) : (h.life s).sent = h.sent s := by
  show (h.taken.filterMap (Task.deed? h.world s)).filterMap Deed.sent? = _
  rw [List.filterMap_filterMap]
  exact List.filterMap_congr fun t _ => t.sent?_deed? h.world s

theorem carried_life (h : History) (s : Nat) :
    (h.life s).carried = (h.world.callsOf s).flatMap h.world.batch := by
  rw [Life.carried, life, World.issued_life, List.flatMap_map]
  rfl

theorem flight_of_outstanding {h : History} (hs : Sound h.toBooks h.world) {c : Nat} (hc : h.outstanding s c) :
    (h.life s).flight = some (h.world.calls[c]?.bind (·.batch)) := by
  obtain ⟨⟨x, hx, rfl⟩, hopen⟩ := hc
  have hstub : h.world.stubs[c]? = some (x.owner, x.batch) := by
    rw [World.stubs, List.getElem?_map, hx]
    rfl
  show (h.world.socket x.owner).inflight.map _ = _
  rw [hs.flights.flying hx hopen, Option.map_some, hstub, hx]
  rfl

end History

/-- A socket that nobody closes, and no drain of which fails, closes when nothing waits and nothing that
is outstanding carries a message: all messages were carried once, in the order of sending, and the
drains that carried them were answered. -/
theorem drained_before_closed (moves : List Move) (m : Move) (s : Nat) :
    let h := History.run moves
    let k := h.after m
    (h.world.socket s).state ≠ .closed → (k.world.socket s).state = .closed →
      .close ∉ k.trail s → (∀ d ∈ k.trail s, d.spoils = false) →
      (k.world.socket s).pending = [] ∧ (∀ c, k.outstanding s c → k.world.batch c = []) ∧
        (k.trail s).flatMap Deed.delivered = k.sent s ∧
        (k.world.callsOf s).flatMap k.world.batch = k.sent s := by
  intro h k hnot hclosed hclose hspoils
  have hk : k = History.run (moves ++ [m]) := (History.run_concat moves m).symm
  have hbalanced : (k.life s).Balanced := by
    rw [hk] at hspoils ⊢
    exact Life.balanced_run _ hspoils
  obtain ⟨hpending, hflight⟩ := (turn_after (sound_run moves) (ordered_run moves) m s).closes_drained
    (sane_run moves s) hnot hclosed hclose hspoils
  have hafloat : (k.life s).afloat = [] := by
    cases hcall : (k.life s).flight with
    | none => exact Life.afloat_of_none hcall
    | some o =>
      cases o with
      | none => exact Life.afloat_of_handshake hcall
      | some batch =>
        rw [Life.afloat, hcall, hflight batch hcall]
        split <;> rfl
  have hcarried : (k.life s).carried = k.sent s := by
    rw [← k.sent_life s, ← hbalanced.sent, hpending, List.append_nil]
  refine ⟨hpending, ?_, ?_, ?_⟩
  · intro c hc
    have hsome := History.flight_of_outstanding (by rw [hk]; exact sound_run _) hc
    rw [World.batch]
    cases hbatch : k.world.calls[c]?.bind (·.batch) with
    | none => rfl
    | some batch =>
      rw [hbatch] at hsome
      exact hflight batch hsome
  · rw [← hcarried, hbalanced.carried, hafloat, List.append_nil]
    rfl
  · rw [← k.carried_life s, hcarried]

/-- A run of a socket that is to close once drained. While the answer to its first drain is delivered, a
handler sends another message and runs the loop again. -/
def nestedClosing : List Move :=
  List.flatten [[.create {
      address := "ws://host", handlers := { onMessage := some [.send "b" false, .runLoop] } },
    .post 0 (.send "a"), .post 0 .closeWhenDrained, .drive], List.replicate 4 .step,
    [.succeed 0 (handshakeResponseBody "id"), .drive], List.replicate 4 .step,
    [.succeed 1 (drainResponseBody ["x"]), .drive], List.replicate 11 .step,
    [.succeed 2 (drainResponseBody []), .drive, .step, .step]]

theorem drained_before_closed_nestedClosing :
    let h := History.run nestedClosing
    let k := h.after .step
    (h.world.socket 0).state ≠ .closed ∧ (k.world.socket 0).state = .closed ∧
      .close ∉ k.trail 0 ∧ (∀ d ∈ k.trail 0, d.spoils = false) ∧ k.sent 0 = ["a", "b"] ∧
      (k.world.socket 0).pending = [] ∧ (∀ c, k.outstanding 0 c → k.world.batch c = []) ∧
        (k.trail 0).flatMap Deed.delivered = k.sent 0 ∧
        (k.world.callsOf 0).flatMap k.world.batch = k.sent 0 := by
  intro h k
  have hopen : (h.world.socket 0).state ≠ .closed := by decide +kernel
  have hclosed : (k.world.socket 0).state = .closed := by decide +kernel
  have hclose : .close ∉ k.trail 0 := by decide +kernel
  have hspoils : ∀ d ∈ k.trail 0, d.spoils = false := by decide +kernel
  exact ⟨hopen, hclosed, hclose, hspoils, by decide +kernel,
    drained_before_closed nestedClosing .step 0 hopen hclosed hclose hspoils⟩

end PollSocket.Socket
