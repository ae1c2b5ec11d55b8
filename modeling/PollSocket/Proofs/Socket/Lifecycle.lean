import PollSocket.Proofs.Socket.Callbacks
import PollSocket.Proofs.Socket.Stages
import PollSocket.Proofs.Wire

set_option autoImplicit false

/-!
# From the handshake to the end

What a socket goes through in every history: it opens once and closes once, its session stays, the
first exchange is the handshake and all others are drains of an open socket (`lifecycle`). The consumer
is told of the end once when the socket closes, and once if the handshake is refused (`closings`).
-/

namespace PollSocket

/-- The exchange asks for a session: it has no body and names no session. -/
def Exchange.IsHandshake (x : Exchange) (protocol : String) : Prop :=
  x.body = none ∧ x.header.get sessionField = "null" ∧ x.header.get protocolField = protocol

/-- The exchange drains a session, which it names in its header and in its body. -/
def Exchange.IsDrain (x : Exchange) (id protocol : String) (messages : List String) : Prop :=
  x.header.get sessionField = id ∧ x.header.get protocolField = protocol ∧
    ∃ body, x.body = some body ∧ decodeDrainRequest? body = some ⟨id, protocol, messages⟩

theorem Exchange.isHandshake_ofSession (url protocol : String) :
    (Exchange.ofSession url nullSession protocol none).IsHandshake protocol :=
  ⟨rfl, rfl, rfl⟩

theorem Exchange.isDrain_ofSession (url id protocol : String) (messages : List String) :
    (Exchange.ofSession url id protocol (some (DrainRequest.body ⟨id, protocol, messages⟩))).IsDrain id
      protocol messages :=
  ⟨rfl, rfl, _, rfl, decodeDrainRequest?_body _⟩

namespace Socket

variable {d : Deed} {h k : History} {rest : List Job} {later : List Nat} {first s : Nat}

namespace Life

/-- Occasions to tell the consumer of an event, those that are planned included. -/
def told (l : Life) (event : Event) : Nat := l.emitted.count event + l.agenda.count (.emit event)

/-- How often the handshake was completed without a session. -/
def refusals (l : Life) : Nat := l.trail.countP Deed.refuses

/-- State and announcements of it stay. -/
structure Still (l k : Life) : Prop where
  state : k.state = l.state
  opened : k.told .opened = l.told .opened
  closed : k.told .closed = l.told .closed
  refusals : k.refusals = l.refusals

/-- What a turn does to the state of a socket and to what its consumer is told about it. -/
inductive Shift (l k : Life) : Prop
  | still (h : l.Still k)
  | opens (hconnecting : l.state = .connecting) (hstate : k.state = .opened)
    (hagenda : .emit .opened ∈ k.agenda) (hopened : k.told .opened = l.told .opened + 1)
    (hclosed : k.told .closed = l.told .closed) (hrefusals : k.refusals = l.refusals)
  | closes (hbefore : l.state ≠ .closed) (hstate : k.state = .closed)
    (hopened : k.told .opened = l.told .opened) (hclosed : k.told .closed = l.told .closed + 1)
    (hrefusals : k.refusals = l.refusals)
  | refused (hstate : k.state = l.state) (hopened : k.told .opened = l.told .opened)
    (hclosed : k.told .closed = l.told .closed + 1) (hrefusals : k.refusals = l.refusals + 1)

variable {j l k : Life}

namespace Still

theorem refl (l : Life) : l.Still l := ⟨rfl, rfl, rfl, rfl⟩

theorem trans (h : j.Still l) (i : l.Still k) : j.Still k :=
  ⟨i.state.trans h.state, i.opened.trans h.opened, i.closed.trans h.closed,
    i.refusals.trans h.refusals⟩

/-- Something is done that completes no handshake. -/
theorem did (l : Life) (hd : d.refuses = false) : l.Still { l with trail := l.trail ++ [d] } :=
  ⟨rfl, rfl, rfl, by simp [Life.refusals, hd]⟩

/-- Jobs are added that tell nothing about the state. -/
theorem push (l : Life) {jobs : List Job} (hopened : .emit .opened ∉ jobs)
    (hclosed : .emit .closed ∉ jobs) : l.Still (l.push jobs) where
  state := rfl
  opened := by simp [told, Life.push, List.count_append, List.count_eq_zero.2 hopened]
  closed := by simp [told, Life.push, List.count_append, List.count_eq_zero.2 hclosed]
  refusals := rfl

/-- A job is taken off the agenda that tells nothing about the state. -/
theorem pop {j : Job} (h : l.agenda = j :: rest) (hopened : j ≠ .emit .opened) (hclosed : j ≠ .emit .closed) :
    l.Still { l with agenda := rest } where
  state := rfl
  opened := by simp [told, h, List.count_cons_of_ne hopened]
  closed := by simp [told, h, List.count_cons_of_ne hclosed]
  refusals := rfl

theorem land (l : Life) : l.Still l.land := ⟨rfl, rfl, rfl, rfl⟩

theorem drain (l : Life) : l.Still l.drain := by
  unfold Life.drain
  split
  · exact ⟨rfl, rfl, rfl, rfl⟩
  · exact refl l

end Still

namespace Shift

theorem close (h : l.Still k) : l.Shift k.close := by
  by_cases hclosed : k.state = .closed
  · rw [close_eq_self hclosed]
    exact .still h
  · refine .closes (fun hl => hclosed (h.state.trans hl)) rfl ?_ ?_ h.refusals
    · rw [← h.opened]
      simp [told, Life.close, hclosed]
    · rw [← h.closed]
      simp [told, Life.close, hclosed]
      omega

theorem closeIfDrained (h : l.Still k) : l.Shift k.closeIfDrained := by
  unfold Life.closeIfDrained
  split
  · exact close h
  · exact .still h

theorem execute (l : Life) (d : Deed) :
    l.Shift ({ l with trail := l.trail ++ [d] }.execute d) := by
  have hdid := fun hd => Still.did l (d := d) hd
  cases d with
  | establish => exact .still ((hdid rfl).trans ⟨rfl, rfl, rfl, rfl⟩)
  | send text =>
    have hqueued : l.Still { l with
        trail := l.trail ++ [.send text], pending := l.pending ++ [text] } :=
      (hdid rfl).trans ⟨rfl, rfl, rfl, rfl⟩
    simp only [Life.execute]
    split
    · exact .still hqueued
    · exact .still (hqueued.trans (.drain _))
  | close => exact close (hdid rfl)
  | closeWhenDrained => exact closeIfDrained ((hdid rfl).trans ⟨rfl, rfl, rfl, rfl⟩)
  | handle => exact .still (hdid rfl)
  | handshakeSucceeded id =>
    simp only [Life.execute]
    split
    next hconnecting =>
      refine .opens hconnecting rfl (by simp [push]) ?_ ?_ (hdid rfl).refusals
      · simp [told, push, land]
        omega
      · simp [told, push, land]
    next => exact .still ((hdid rfl).trans ⟨rfl, rfl, rfl, rfl⟩)
  | handshakeMalformed reason | handshakeFailed =>
    refine .refused rfl ?_ ?_ ?_
    · simp [told, Life.execute, push, land]
    · simp [told, Life.execute, push, land]
      omega
    · simp [Life.refusals, Life.execute, push, land, Deed.refuses]
  | drainSucceeded batch messages => exact .still ((hdid rfl).trans (.push _ (by simp) (by simp)))
  | drainMalformed batch reason =>
    exact .still (((hdid rfl).trans (.land _)).trans (.push _ (by simp) (by simp)))
  | drainFailed batch =>
    simp only [Life.execute]
    split
    · exact close ((hdid rfl).trans ⟨rfl, rfl, rfl, rfl⟩)
    · exact .still ((hdid rfl).trans ⟨rfl, rfl, rfl, rfl⟩)

theorem discharge {j : Job} (h : l.agenda = j :: rest) :
    l.Shift ({ l with agenda := rest }.discharge j) := by
  cases j with
  | emit event =>
    refine .still ⟨rfl, ?_, ?_, rfl⟩
    · simp [told, Life.discharge, h, List.count_cons]
      omega
    · simp [told, Life.discharge, h, List.count_cons]
      omega
  | dispatch messages =>
    have hpopped := Still.pop h (by simp) (by simp)
    cases messages with
    | nil => exact .still hpopped
    | cons m more => exact .still (hpopped.trans (.push _ (by simp) (by simp)))
  | resume =>
    exact closeIfDrained (((Still.pop h (by simp) (by simp)).trans (.land _)).trans (.drain _))
  | begin => exact closeIfDrained ((Still.pop h (by simp) (by simp)).trans (.drain _))
  | closeIfClosing =>
    have hpopped := Still.pop h (by simp) (by simp)
    simp only [Life.discharge]
    split
    · exact close hpopped
    · exact .still hpopped

end Shift

theorem Turn.shift (t : l.Turn k) : l.Shift k := by
  cases t with
  | rest => exact .still (.refl l)
  | created => exact .still ⟨rfl, rfl, rfl, rfl⟩
  | deed d => exact .execute l d
  | job j rest h => exact .discharge h
  | caught => exact .still (.push l (by simp) (by simp))

/-! ## Laws of a turn -/

theorem trail_drain (l : Life) : l.drain.trail = l.trail := by
  unfold drain
  split <;> rfl

theorem trail_closeIfDrained (l : Life) : l.closeIfDrained.trail = l.trail := by
  unfold closeIfDrained
  split <;> rfl

theorem trail_execute (l : Life) (d : Deed) : (l.execute d).trail = l.trail := by
  cases d with
  | send text =>
    simp only [execute]
    split
    · rfl
    · exact trail_drain _
  | closeWhenDrained => exact trail_closeIfDrained _
  | handshakeSucceeded id | drainFailed batch =>
    simp only [execute]
    split <;> rfl
  | _ => rfl

theorem trail_discharge (l : Life) (j : Job) : (l.discharge j).trail = l.trail := by
  cases j with
  | emit event => rfl
  | dispatch messages => cases messages <;> rfl
  | resume | begin =>
    simp only [discharge]
    exact (trail_closeIfDrained _).trans (trail_drain _)
  | closeIfClosing =>
    simp only [discharge]
    split <;> rfl

/-- What was done is not undone. -/
theorem Turn.trail (t : l.Turn k) : l.trail <+: k.trail := by
  cases t with
  | rest | created | caught => exact List.prefix_rfl
  | deed d =>
    rw [trail_execute]
    exact List.prefix_append _ _
  | job j rest =>
    rw [trail_discharge]

/-- A turn by which something is done is that deed. -/
theorem Turn.of_trail (t : l.Turn k) (h : k.trail = l.trail ++ [d]) :
    l.Allows d ∧ k = ({ l with trail := l.trail ++ [d] } : Life).execute d := by
  cases t with
  | rest | created | caught => exact absurd h (by simp [push])
  | deed e he =>
    rw [trail_execute] at h
    cases List.append_cancel_left h
    exact ⟨he, rfl⟩
  | job j rest =>
    rw [trail_discharge] at h
    exact absurd h (by simp)

/-- A call that is issued is the handshake, before anything else is done, or a drain of an open
socket. -/
theorem Turn.issued (h : l.Sane) (t : l.Turn k) : k.issued = l.issued ∨
    (l.trail = [] ∧ l.issued = [] ∧ k.issued = [none]) ∨
    (l.state = .opened ∧ ∃ batch, k.issued = l.issued ++ [some batch]) := by
  -- whatever leads to a drain, it issues a call only if the socket is open
  have hdrain : ∀ {j : Life}, j.state = l.state → j.issued = l.issued →
      j.drain.issued = l.issued ∨ (l.state = .opened ∧ ∃ batch, j.drain.issued = l.issued ++ [some batch]) := by
    intro j hstate hissued
    unfold drain
    split
    next hcond => exact Or.inr ⟨hstate.symm.trans hcond.1, j.pending, by rw [← hissued]; rfl⟩
    next => exact Or.inl hissued
  have hclose : ∀ j : Life, j.closeIfDrained.issued = j.issued := by
    intro j
    unfold closeIfDrained
    split <;> rfl
  cases t with
  | rest | created | caught => exact Or.inl rfl
  | deed d hd =>
    cases d with
    | establish =>
      obtain ⟨hnone, -⟩ := h.stage.untouched hd
      refine Or.inr (Or.inl ⟨hd, hnone, ?_⟩)
      show l.issued ++ [none] = _
      rw [hnone]
      rfl
    | send text =>
      simp only [execute]
      split
      · exact Or.inl rfl
      · refine (hdrain ?_ ?_).imp_right Or.inr <;> rfl
    | closeWhenDrained => exact Or.inl (hclose _)
    | handshakeSucceeded id | drainFailed batch =>
      simp only [execute]
      split <;> exact Or.inl rfl
    | _ =>
      exact Or.inl rfl
  | job j rest =>
    cases j with
    | emit event => exact Or.inl rfl
    | dispatch messages => cases messages <;> exact Or.inl rfl
    | resume | begin =>
      simp only [discharge, hclose]
      refine (hdrain ?_ ?_).imp_right Or.inr <;> rfl
    | closeIfClosing =>
      simp only [discharge]
      split <;> exact Or.inl rfl

theorem Turn.forward (t : l.Turn k) : l.state.code ≤ k.state.code := by
  cases t.shift with
  | still hstill => rw [hstill.state]
  | refused hstate => rw [hstate]
  | opens hconnecting hstate =>
    rw [hconnecting, hstate]
    decide
  | closes _ hstate =>
    rw [hstate]
    cases l.state <;> decide

theorem Turn.closed (t : l.Turn k) (h : l.state = .closed) : k.state = .closed := by
  have hforward := t.forward
  rw [h] at hforward
  cases hstate : k.state with
  | closed => rfl
  | connecting | opened =>
    rw [hstate] at hforward
    exact absurd hforward (by decide)

/-- An opening is announced when it happens. -/
theorem Turn.told_opened (t : l.Turn k) : k.told .opened = l.told .opened +
    if l.state ≠ .opened ∧ k.state = .opened then 1 else 0 := by
  cases t.shift with
  | still hstill => simp [hstill.state, hstill.opened]
  | refused hstate hopened => simp [hstate, hopened]
  | opens hconnecting hstate _ hopened => simp [hconnecting, hstate, hopened]
  | closes _ hstate hopened => simp [hstate, hopened]

/-! ## Laws of a life -/

/-- The handshake is issued first, and drains follow. -/
theorem Stage.issued (h : l.Stage) (hsome : l.issued ≠ []) :
    ∃ batches : List (List String), l.issued = none :: batches.map some := by
  cases h with
  | silent hissued => exact absurd hissued hsome
  | greeting hissued | refused _ _ hissued => exact ⟨[], hissued⟩
  | accepted _ batches hissued => exact ⟨batches, hissued⟩

/-- A socket that was refused is not open. -/
theorem Sane.not_opened (h : l.Sane) (hd : d ∈ l.trail) (hrefuses : d.refuses = true) :
    l.state ≠ .opened := by
  intro hopened
  obtain ⟨id, batches, -, -, -, hgreetings⟩ := h.stage.accepted_of_opened hopened
  -- an open socket has been accepted, and that is all that came of its handshake
  have hmem : d ∈ l.greetings := by
    refine List.mem_filter.2 ⟨hd, ?_⟩
    cases d <;> first | rfl | cases hrefuses
  rw [hgreetings, List.mem_singleton] at hmem
  rw [hmem] at hrefuses
  cases hrefuses

/-- The session is what the handshake has brought. -/
theorem Sane.session_iff (h : l.Sane) (id : String) :
    l.session = .assigned id ↔ .handshakeSucceeded id ∈ l.trail := by
  have hmem : .handshakeSucceeded id ∈ l.trail ↔ .handshakeSucceeded id ∈ l.greetings := by
    rw [greetings, List.mem_filter]
    exact ⟨fun hd => ⟨hd, rfl⟩, fun hd => hd.1⟩
  rw [hmem]
  cases h.stage with
  | silent _ _ hsession _ hnone | greeting _ _ hsession _ hnone => simp [hsession, hnone]
  | refused d hd _ _ hsession _ hone =>
    rw [hsession, hone, List.mem_singleton]
    refine ⟨fun hs => SessionId.noConfusion hs, ?_⟩
    rintro rfl
    cases hd
  | accepted id' _ _ _ hsession hone => simp [hsession, hone, eq_comm]

/-- The socket has come to its end: it is closed, or its handshake brought no session. -/
def Over (l : Life) : Prop := l.state = .closed ∨ ∃ d ∈ l.trail, d.refuses = true

theorem Over.turn (h : l.Over) (t : l.Turn k) : k.Over := by
  rcases h with hclosed | ⟨d, hd, hrefuses⟩
  · left
    cases t.shift with
    | still hstill => exact hstill.state.trans hclosed
    | opens hconnecting =>
      cases hconnecting.symm.trans hclosed
    | closes _ hstate => exact hstate
    | refused hstate => exact hstate.trans hclosed
  · exact Or.inr ⟨d, t.trail.subset hd, hrefuses⟩

theorem Over.not_opened (h : l.Over) (hl : l.Sane) : l.state ≠ .opened := by
  rcases h with hclosed | ⟨d, hd, hrefuses⟩
  · rw [hclosed]
    simp
  · exact hl.not_opened hd hrefuses

/-- No opening is planned. -/
theorem Over.told_opened (h : l.Over) (hl : l.Sane) : l.told .opened = l.emitted.count .opened := by
  have hnone : .emit .opened ∉ l.agenda := fun hmem => h.not_opened hl (hl.opening hmem)
  rw [told, List.count_eq_zero.2 hnone, Nat.add_zero]

/-- Then no call is issued and no opening announced any more. -/
theorem Over.final (h : l.Over) (hl : l.Sane) (t : l.Turn k) :
    k.issued = l.issued ∧ k.told .opened = l.told .opened := by
  constructor
  · rcases t.issued hl with hsame | ⟨htrail, -⟩ | ⟨hopened, -⟩
    · exact hsame
    · -- nothing was done yet, so the socket is neither closed nor refused
      rcases h with hclosed | ⟨d, hd, -⟩
      · obtain ⟨-, -, -, hconnecting⟩ := hl.stage.untouched htrail
        cases hconnecting.symm.trans hclosed
      · rw [htrail] at hd
        cases hd
    · exact absurd hopened (h.not_opened hl)
  · cases t.shift with
    | still hstill => exact hstill.opened
    | closes _ _ hopened | refused _ hopened => exact hopened
    | opens hconnecting hstate =>
      -- a socket opens from connecting, and not after a refusal
      rcases h with hclosed | ⟨d, hd, hrefuses⟩
      · cases hconnecting.symm.trans hclosed
      · exact absurd hstate ((hl.turn t).not_opened (t.trail.subset hd) hrefuses)

/-- An opening is announced once, and not before it happens. -/
theorem told_opened_run (moves : List Move) (s : Nat) :
    let l := (History.run moves).life s
    l.told .opened ≤ 1 ∧ (l.state = .connecting → l.told .opened = 0) := by
  refine holds_run (P := fun l => l.told .opened ≤ 1 ∧ (l.state = .connecting → l.told .opened = 0))
    ⟨by simp [told], fun _ => by simp [told]⟩ (fun {l k} h t => ?_) moves s
  cases t.shift with
  | still hstill =>
    rw [hstill.opened, hstill.state]
    exact h
  | opens hconnecting hstate _ hopened =>
    rw [hopened, h.2 hconnecting, hstate]
    simp
  | closes _ hstate hopened =>
    rw [hopened, hstate]
    exact ⟨h.1, fun hk => by cases hk⟩
  | refused hstate hopened =>
    rw [hopened, hstate]
    exact h

/-- The end is announced when the socket closes, and when its handshake brings no session. -/
theorem told_closed_run (moves : List Move) (s : Nat) :
    let l := (History.run moves).life s
    l.told .closed = (if l.state = .closed then 1 else 0) + l.refusals := by
  refine holds_run (P := fun l => l.told .closed = (if l.state = .closed then 1 else 0) + l.refusals)
    (by simp [told, refusals]) (fun {l k} h t => ?_) moves s
  cases t.shift with
  | still hstill => rw [hstill.closed, hstill.state, hstill.refusals, h]
  | opens hconnecting hstate _ _ hclosed hrefusals =>
    rw [hclosed, hstate, hrefusals, h, hconnecting]
    rfl
  | closes hbefore hstate _ hclosed hrefusals =>
    rw [hclosed, hrefusals, h, if_neg hbefore, if_pos hstate]
    omega
  | refused hstate _ hclosed hrefusals =>
    rw [hclosed, hstate, hrefusals, h]
    omega

/-- There is one handshake, so it is refused once at most. -/
theorem Sane.refusals_le (h : l.Sane) : l.refusals ≤ 1 := by
  -- refusals are among the completions of the handshake, of which there is one at most
  have hle : l.refusals ≤ l.greetings.length := by
    rw [refusals, greetings, ← List.countP_eq_length_filter]
    refine List.countP_mono_left fun d _ hd => ?_
    cases d <;> first | rfl | cases hd
  refine hle.trans ?_
  cases h.stage with
  | silent _ _ _ _ hnone | greeting _ _ _ _ hnone => simp [hnone]
  | refused _ _ _ _ _ _ hone | accepted _ _ _ _ _ hone => simp [hone]

end Life

/-! ## Calls of a socket -/

namespace World

variable {w v : World}

/-- What the calls of a socket carry, seen from the socket. -/
theorem issued_life (w : World) (s : Nat) (trail : List Deed) (emitted : List Event) :
    (w.life s trail emitted).issued = (w.callsOf s).map fun c => w.calls[c]?.bind (·.batch) := by
  show w.stubs.filterMap _ = _
  obtain ⟨loop, sockets, calls, agenda, fault, ran, journal⟩ := w
  -- by induction on the calls, newest last: `callsOf` filters positions, `stubs` the calls
  induction calls using List.reverseRecOn with
  | nil => rfl
  | append_singleton front x ih =>
    have hof := callsOf_append (w := ⟨loop, sockets, front, agenda, fault, ran, journal⟩)
      (v := ⟨loop, sockets, front ++ [x], agenda, fault, ran, journal⟩) rfl s
    rw [hof, List.map_append]
    have hold : ∀ c ∈ callsOf ⟨loop, sockets, front, agenda, fault, ran, journal⟩ s,
        (front ++ [x])[c]?.bind (·.batch) = front[c]?.bind (·.batch) := by
      intro c hc
      obtain ⟨y, hy, -⟩ := mem_callsOf.1 hc
      rw [List.getElem?_append_left (List.getElem?_eq_some_iff.1 hy).1]
    have hstubs : stubs ⟨loop, sockets, front ++ [x], agenda, fault, ran, journal⟩ =
        stubs ⟨loop, sockets, front, agenda, fault, ran, journal⟩ ++ [(x.owner, x.batch)] := by
      simp [stubs]
    rw [hstubs, List.filterMap_append, ih, List.map_congr_left hold]
    by_cases hx : x.owner = s <;> simp [hx]

end World

namespace History

/-- Occasions of socket `s` to open, those that are due included. -/
def openings (h : History) (s : Nat) : Nat :=
  h.emitted.count (s, .opened) + if h.world.emitting? = some (s, .opened) then 1 else 0

theorem count_occasions (h : History) (s : Nat) (event : Event) :
    (h.occasions s).count event = h.emitted.count (s, event) := by
  rw [occasions]
  induction h.emitted with
  | nil => rfl
  | cons o more ih =>
    obtain ⟨r, e⟩ := o
    by_cases hr : r = s
    · subst hr
      simp [List.count_cons, ih]
    · simp [ih, hr]

/-- An opening is announced at once, so one that is planned is due. -/
theorem told_opened (h : History) (ho : Ordered h.taken h.world) (s : Nat) :
    (h.life s).told .opened = h.openings s := by
  -- an opening can only be the first duty, so it is planned exactly if it is due
  have hplanned : (h.life s).agenda.count (.emit .opened) =
      if h.world.emitting? = some (s, .opened) then 1 else 0 := by
    have hprompt := ho.prompt s
    show (h.world.agenda.filterMap (Duty.job? s)).count _ = _
    unfold World.emitting?
    cases hagenda : h.world.agenda with
    | nil => rfl
    | cons d rest =>
      rw [hagenda] at hprompt
      have hnone : (rest.filterMap (Duty.job? s)).count (.emit .opened) = 0 :=
        List.count_eq_zero.2 fun hmem => hprompt (mem_jobs.1 hmem)
      cases d with
      | emit r event => by_cases hr : r = s <;> simp [Duty.job?, hr, List.count_cons, hnone]
      | dispatch r | resume r | begin r | closeIfClosing r =>
        by_cases hr : r = s <;> simp [Duty.job?, hr, hnone]
      | run | act | leave => exact hnone
  rw [Life.told, hplanned, openings, ← count_occasions]
  rfl

/-- An opening that is planned is due: nothing is done before it. -/
theorem emitting_of_opened (ho : Ordered h.taken h.world) (hmem : .emit .opened ∈ (h.life s).agenda) :
    h.world.emitting? = some (s, .opened) := by
  have hpos : 0 < (h.life s).told .opened - h.emitted.count (s, .opened) := by
    rw [Life.told, ← count_occasions]
    show 0 < (h.life s).emitted.count .opened + _ - (h.life s).emitted.count .opened
    rw [Nat.add_sub_cancel_left]
    exact List.count_pos_iff.2 hmem
  rw [h.told_opened ho s, openings, Nat.add_sub_cancel_left] at hpos
  by_contra hnot
  rw [if_neg hnot] at hpos
  exact absurd hpos (Nat.lt_irrefl 0)

end History

/-! ## Every history -/

/-- Socket `s` has opened, and there was no step since. -/
def JustOpened (moves : List Move) (s : Nat) : Prop :=
  ∃ front m waits, moves = front ++ m :: waits ∧ (∀ n ∈ waits, n ≠ .step) ∧
    ((History.run front).world.socket s).state ≠ .opened ∧
    ((History.run (front ++ [m])).world.socket s).state = .opened

/-- What a history `h` of a socket, made by moves, and one that it goes on to, `k`, have to do with each
other. -/
structure Lifecycle (moves : List Move) (h k : History) (s : Nat) : Prop where
  /-- Connecting is 0, open is 1, closed is 2. -/
  forward : (h.world.socket s).state.code ≤ (k.world.socket s).state.code
  session : ∀ id, (h.world.socket s).session = .assigned id →
    (k.world.socket s).session = .assigned id
  once : k.world.callbacks.count (s, .opened) ≤ 1
  /-- The first step after the socket has opened calls the handler if it is there, and nothing else does. -/
  opens : ∀ m, h.world.callbacks.count (s, .opened) < (h.after m).world.callbacks.count (s, .opened) ↔
    m = .step ∧ JustOpened moves s ∧ h.world.attends (s, .opened) = true
  /-- The first call is the handshake. -/
  handshake : ∀ first later, k.world.callsOf s = first :: later →
    ∃ x, k.world.calls[first]? = some x ∧ x.exchange.IsHandshake (k.world.socket s).protocol
  /-- The others are drains of the session that the answer to the handshake has brought. -/
  drains : ∀ first later, k.world.callsOf s = first :: later → ∀ c ∈ later, ∃ x batch body id,
    k.world.calls[c]? = some x ∧ x.batch = some batch ∧
      Task.succeed first body ∈ k.taken ∧ decodeHandshakeResponse body = .ok id ∧
      x.exchange.IsDrain id (k.world.socket s).protocol batch
  /-- They are issued by a socket that is open. -/
  gated : ∀ m, ∀ c ∈ (h.after m).world.callsOf s, c ∉ h.world.callsOf s →
    h.world.callsOf s = [] ∨ (h.world.socket s).state = .opened
  /-- Nothing is issued by a socket that is closed or was refused, and it does not open. -/
  ended : (h.world.socket s).state = .closed ∨ (∃ d ∈ h.trail s, d.refuses = true) →
    k.world.callsOf s = h.world.callsOf s ∧
      k.world.callbacks.count (s, .opened) = h.world.callbacks.count (s, .opened)

/-- Two lists of calls of which one goes on the other are the same if as many calls are known. -/
theorem callsOf_eq (hkeeps : h.world.Keeps k.world) (hissued : (k.life s).issued = (h.life s).issued) :
    k.world.callsOf s = h.world.callsOf s := by
  have hlength := congrArg List.length hissued
  rw [History.life, History.life, World.issued_life, World.issued_life, List.length_map,
    List.length_map] at hlength
  obtain ⟨more, hmore, -⟩ := hkeeps.callsOf_append s
  exact ((hmore ▸ List.prefix_append _ _ : h.world.callsOf s <+: k.world.callsOf s).eq_of_length
    hlength.symm).symm

theorem keeps_run (moves more : List Move) :
    (History.run moves).world.Keeps (History.run (moves ++ more)).world := by
  induction more using List.reverseRecOn with
  | nil =>
    rw [List.append_nil]
    exact fun c x hx => ⟨x, hx, rfl, rfl, rfl⟩
  | append_singleton front m ih =>
    rw [← List.append_assoc, History.run_concat]
    exact ih.trans (History.extends_after _ m).keeps

/-- The first call of a socket has no batch, and all others have one. -/
theorem calls_of_sane (h : (k.life s).Sane) (hcalls : k.world.callsOf s = first :: later) :
    (∃ x, k.world.calls[first]? = some x ∧ x.owner = s ∧ x.batch = none) ∧
      ∀ c ∈ later, ∃ x batch, k.world.calls[c]? = some x ∧ x.owner = s ∧ x.batch = some batch := by
  have hissued : (k.life s).issued = (first :: later).map fun c => k.world.calls[c]?.bind (·.batch) := by
    rw [← hcalls]
    exact World.issued_life _ _ _ _
  have hknown : ∀ c ∈ first :: later, ∃ x, k.world.calls[c]? = some x ∧ x.owner = s := by
    intro c hc
    exact World.mem_callsOf.1 (hcalls ▸ hc)
  obtain ⟨batches, hbatches⟩ := h.stage.issued (by simp [hissued])
  rw [hissued, List.map_cons, List.cons.injEq] at hbatches
  obtain ⟨hfirst, hlater⟩ := hbatches
  constructor
  · obtain ⟨x, hx, hown⟩ := hknown first List.mem_cons_self
    rw [hx] at hfirst
    exact ⟨x, hx, hown, hfirst⟩
  · intro c hc
    obtain ⟨x, hx, hown⟩ := hknown c (List.mem_cons_of_mem _ hc)
    have hmem := List.mem_map_of_mem (f := fun c => k.world.calls[c]?.bind (·.batch)) hc
    rw [hlater, List.mem_map] at hmem
    obtain ⟨batch, -, hbatch⟩ := hmem
    rw [hx] at hbatch
    exact ⟨x, batch, hx, hown, hbatch.symm⟩

theorem isHandshake_first (hs : Sound k.toBooks k.world) (hl : (k.life s).Sane)
    (hcalls : k.world.callsOf s = first :: later) :
    ∃ x, k.world.calls[first]? = some x ∧ x.exchange.IsHandshake (k.world.socket s).protocol := by
  obtain ⟨⟨x, hx, hown, hbatch⟩, -⟩ := calls_of_sane hl hcalls
  have hcall := hs.wired.calls first x hx
  rw [Call.Wired, hbatch, hown] at hcall
  refine ⟨x, hx, ?_⟩
  rw [hcall]
  exact Exchange.isHandshake_ofSession _ _

theorem isDrain_later (hs : Sound k.toBooks k.world) (hl : (k.life s).Sane)
    (hcalls : k.world.callsOf s = first :: later) {c : Nat} (hc : c ∈ later) :
    ∃ x batch body id, k.world.calls[c]? = some x ∧ x.batch = some batch ∧
      Task.succeed first body ∈ k.taken ∧ decodeHandshakeResponse body = .ok id ∧
      x.exchange.IsDrain id (k.world.socket s).protocol batch := by
  obtain ⟨⟨x, hx, hown, hnone⟩, hlater⟩ := calls_of_sane hl hcalls
  obtain ⟨y, batch, hy, hyown, hbatch⟩ := hlater c hc
  have hcall := hs.wired.calls c y hy
  rw [Call.Wired, hbatch, hyown] at hcall
  obtain ⟨id, hid, hexchange⟩ := hcall
  -- the session is that of the one handshake, which is the first call
  obtain ⟨d, body, z, htaken, hz, hzown, hznone, hdecode⟩ := hs.wired.assigned s id hid
  obtain rfl := hs.wired.once d first z x hz hx (hzown.trans hown.symm) hznone hnone
  refine ⟨y, batch, body, id, hy, hbatch, htaken, hdecode, ?_⟩
  rw [hexchange]
  exact Exchange.isDrain_ofSession _ _ _ _

/-- A socket whose life is over issues nothing and does not open, however the history goes on. -/
theorem ended_run (moves more : List Move) (hover : ((History.run moves).life s).Over) :
    let h := History.run moves
    let k := History.run (moves ++ more)
    k.world.callsOf s = h.world.callsOf s ∧
      k.world.callbacks.count (s, .opened) = h.world.callbacks.count (s, .opened) := by
  intro h k
  have hl := sane_run moves s
  obtain ⟨hm, hover', hissued, htold⟩ := Life.kept_run (s := s) (P := fun l => l.Sane ∧ l.Over ∧
    l.issued = (h.life s).issued ∧ l.told .opened = (h.life s).told .opened)
    (fun ⟨hsane, hover, hissued, htold⟩ t =>
      ⟨hsane.turn t, hover.turn t, (hover.final hsane t).1.trans hissued,
        (hover.final hsane t).2.trans htold⟩)
    moves more ⟨hl, hover, rfl, rfl⟩
  -- no opening is planned on either side, so those told are those that happened
  have hemitted : k.emitted.count (s, .opened) = h.emitted.count (s, .opened) := by
    rw [hover'.told_opened hm, hover.told_opened hl] at htold
    rw [← k.count_occasions, ← h.count_occasions]
    exact htold
  refine ⟨callsOf_eq (keeps_run moves more) hissued, ?_⟩
  obtain ⟨due, found, hgoes, hcalled, hsublist⟩ := History.callbacks_run moves more
  -- no occasion to tell of an opening was added, so no consumer was told
  have hdue : due.count (s, .opened) = 0 := by
    rw [show k.emitted = h.emitted ++ due from hgoes, List.count_append] at hemitted
    exact Nat.add_eq_left.1 hemitted
  have hfound := hsublist.count_le (s, .opened)
  rw [show k.world.callbacks = h.world.callbacks ++ found from hcalled, List.count_append]
  omega

/-- The move that opens a socket, and no other, makes an occasion to tell so. -/
theorem openings_concat (moves : List Move) (m : Move) (s : Nat) :
    (History.run (moves ++ [m])).openings s = (History.run moves).openings s +
      if ((History.run moves).world.socket s).state ≠ .opened ∧
        ((History.run (moves ++ [m])).world.socket s).state = .opened then 1 else 0 := by
  rw [← History.told_opened _ (ordered_run _), ← History.told_opened _ (ordered_run _), History.run_concat]
  exact (turn_after (sound_run moves) (ordered_run moves) m s).told_opened

/-- Only a step calls a consumer who is due. -/
theorem emitting?_after {m : Move} {o : Nat × Event} (hm : m ≠ .step) (ho : h.world.emitting? = some o) :
    (h.after m).world.emitting? = some o := by
  obtain ⟨rest, hagenda⟩ : ∃ rest, h.world.agenda = .emit o.1 o.2 :: rest := by
    unfold World.emitting? at ho
    split at ho
    next hagenda =>
      cases ho
      exact ⟨_, hagenda⟩
    next => cases ho
  cases m with
  | step => exact absurd rfl hm
  | act a => simpa only [History.after, World.handler?, hagenda] using ho
  | drive => simpa only [History.after, hagenda, List.isEmpty_cons, Bool.false_eq_true, if_false] using ho
  | create o =>
    show (h.world.create o).emitting? = _
    rw [World.create_eq]
    split <;> exact ho
  | post | succeed | fail =>
    unfold History.after
    dsimp only
    split <;> exact ho
  | fault | closeLoop => exact ho

/-- A consumer is due to be told of the opening as long as there was no step since. -/
theorem emitting_iff_justOpened (moves : List Move) (s : Nat) :
    (History.run moves).world.emitting? = some (s, .opened) ↔ JustOpened moves s := by
  constructor
  · intro hdue
    induction moves using List.reverseRecOn with
    | nil => cases hdue
    | append_singleton front m ih =>
      by_cases hopens : ((History.run front).world.socket s).state ≠ .opened ∧
          ((History.run (front ++ [m])).world.socket s).state = .opened
      · exact ⟨front, m, [], rfl, by simp, hopens⟩
      · -- it was due before, and the move was no step, since that would have been the occasion
        have hsame := openings_concat front m s
        rw [if_neg hopens, History.openings, if_pos hdue, History.openings, History.run_concat,
          History.emitted_after, List.count_append] at hsame
        by_cases hbefore : (History.run front).world.emitting? = some (s, .opened)
        · obtain ⟨early, n, waits, rfl, hwaits, hearly⟩ := ih hbefore
          have hm : m ≠ .step := by
            rintro rfl
            simp [World.due?, hbefore] at hsame
          refine ⟨early, n, waits ++ [m], by simp, ?_, hearly⟩
          intro n' hn'
          rcases List.mem_append.1 hn' with hn' | hn'
          · exact hwaits n' hn'
          · rwa [List.mem_singleton.1 hn']
        · rw [if_neg hbefore] at hsame
          omega
  · rintro ⟨front, m, waits, rfl, hwaits, hnot, hopened⟩
    rw [List.append_cons]
    induction waits using List.reverseRecOn with
    | nil =>
      rw [List.append_nil]
      apply History.emitting_of_opened (ordered_run _)
      rw [History.run_concat] at hopened ⊢
      cases (turn_after (sound_run front) (ordered_run front) m s).shift with
      | opens _ _ hagenda => exact hagenda
      | still hstill => exact absurd (hstill.state.symm.trans hopened) hnot
      | closes _ hstate => exact absurd (hstate.symm.trans hopened) (by simp)
      | refused hstate => exact absurd (hstate.symm.trans hopened) hnot
    | append_singleton waits n ih =>
      rw [← List.append_assoc, History.run_concat]
      exact emitting?_after (hwaits n (by simp)) (ih fun n' hn' => hwaits n' (List.mem_append_left _ hn'))

theorem opens_iff_justOpened (moves : List Move) (m : Move) (s : Nat) :
    (History.run moves).world.callbacks.count (s, .opened) <
        ((History.run moves).after m).world.callbacks.count (s, .opened) ↔
      m = .step ∧ JustOpened moves s ∧ (History.run moves).world.attends (s, .opened) = true := by
  rw [← emitting_iff_justOpened, History.callbacks_after, List.count_append, Nat.lt_add_right_iff_pos,
    List.count_pos_iff, Option.mem_toList, Option.filter_eq_some_iff]
  constructor
  · rintro ⟨hdue, hattends⟩
    cases m with
    | step => exact ⟨rfl, hdue, hattends⟩
    | _ => cases hdue
  · rintro ⟨rfl, hdue, hattends⟩
    exact ⟨hdue, hattends⟩

/-- A socket goes through its states in order, has one session and opens once; it shakes hands first
and drains while it is open. -/
theorem lifecycle (moves more : List Move) (s : Nat) :
    Lifecycle moves (History.run moves) (History.run (moves ++ more)) s := by
  set h := History.run moves
  set k := History.run (moves ++ more)
  have hl : (h.life s).Sane := sane_run moves s
  have hm : (k.life s).Sane := sane_run (moves ++ more) s
  have hturn : ∀ m, (h.life s).Turn ((h.after m).life s) :=
    fun m => turn_after (sound_run moves) (ordered_run moves) m s
  constructor
  case forward =>
    exact Life.kept_run (P := fun l => (h.life s).state.code ≤ l.state.code)
      (fun hle t => hle.trans t.forward) moves more le_rfl
  case session =>
    intro id hid
    apply (hm.session_iff id).2
    exact Life.kept_run (P := fun l => .handshakeSucceeded id ∈ l.trail)
      (fun hmem t => t.trail.subset hmem) moves more ((hl.session_iff id).1 hid)
  case once =>
    calc k.world.callbacks.count (s, .opened)
      _ ≤ k.emitted.count (s, .opened) := (History.callbacks_sublist _).count_le _
      _ ≤ k.openings s := Nat.le_add_right _ _
      _ = (k.life s).told .opened := (k.told_opened (ordered_run _) s).symm
      _ ≤ 1 := (Life.told_opened_run (moves ++ more) s).1
  case opens => exact fun m => opens_iff_justOpened moves m s
  case handshake => exact fun first later hcalls => isHandshake_first (sound_run _) hm hcalls
  case drains => exact fun first later hcalls c hc => isDrain_later (sound_run _) hm hcalls hc
  case gated =>
    intro m c hc hnew
    rcases (hturn m).issued hl with hsame | ⟨-, hnone, -⟩ | ⟨hopened, -⟩
    · rw [callsOf_eq (h.extends_after m).keeps hsame] at hc
      exact absurd hc hnew
    · left
      rw [History.life, World.issued_life] at hnone
      exact List.map_eq_nil_iff.1 hnone
    · exact Or.inr hopened
  case ended => exact ended_run moves more

/-! ## The end -/

/-- Nothing is planned for a socket when no task is being executed. -/
theorem agenda_of_idle (hidle : h.world.idle = true) (s : Nat) : (h.life s).agenda = [] := by
  show h.world.agenda.filterMap (Duty.job? s) = []
  unfold World.idle at hidle
  split at hidle
  next hnil => simp [hnil]
  next hrun => simp [hrun, Duty.job?]
  next => cases hidle

/-- The consumer is called for the end once at most when the socket closes, whatever closes it, and once
at most when the handshake fails or brings no session, which does not close the socket. So it is called
once at most if the handshake does neither. When no task is being executed, these are the occasions
that there were, and a handler that is always there was called on all of them. -/
theorem closings (moves : List Move) (s : Nat) :
    let h := History.run moves
    let ends := (if (h.world.socket s).state = .closed then 1 else 0) + (h.trail s).countP Deed.refuses
    (h.trail s).countP Deed.refuses ≤ 1 ∧
      h.world.callbacks.count (s, .closed) ≤ h.emitted.count (s, .closed) ∧
      h.emitted.count (s, .closed) ≤ ends ∧
      ((∀ d ∈ h.trail s, d.refuses = false) → h.world.callbacks.count (s, .closed) ≤ 1) ∧
      (h.world.idle = true → h.emitted.count (s, .closed) = ends ∧
        (Attended moves s .onClose → h.world.callbacks.count (s, .closed) = ends)) := by
  intro h ends
  have htold : h.emitted.count (s, .closed) + (h.life s).agenda.count (.emit .closed) = ends := by
    rw [← h.count_occasions]
    exact Life.told_closed_run moves s
  have hcalled : h.world.callbacks.count (s, .closed) ≤ h.emitted.count (s, .closed) :=
    (History.callbacks_sublist moves).count_le _
  have hle : h.emitted.count (s, .closed) ≤ ends := by
    rw [← htold]
    exact Nat.le_add_right _ _
  refine ⟨(sane_run moves s).refusals_le, hcalled, hle, ?_, ?_⟩
  · intro hnone
    have hzero : (h.trail s).countP Deed.refuses = 0 :=
      List.countP_eq_zero.2 fun d hd => by simp [hnone d hd]
    calc h.world.callbacks.count (s, .closed)
      _ ≤ ends := hcalled.trans hle
      _ ≤ 1 := by
        show (if (h.world.socket s).state = .closed then 1 else 0) + _ ≤ 1
        rw [hzero]
        split <;> simp
  · intro hidle
    rw [agenda_of_idle hidle] at htold
    exact ⟨htold, fun hattended => (count_callbacks moves hattended).trans htold⟩

/-- A run in which the handshake fails and the socket is closed afterwards. -/
def refusedThenClosed : List Move :=
  [.create { address := "ws://host", handlers := { onClose := some [] } }, .drive, .step, .step,
    .fail 0, .drive, .step, .step, .step, .step, .post 0 .close, .drive, .step, .step, .step, .step]

theorem closings_refusedThenClosed :
    let h := History.run refusedThenClosed
    h.world.idle = true ∧ Attended refusedThenClosed 0 .onClose ∧ h.world.callbacks.count (0, .closed) =
      (if (h.world.socket 0).state = .closed then 1 else 0) + (h.trail 0).countP Deed.refuses := by
  intro h
  have hidle : h.world.idle = true := by decide
  have hattended : Attended refusedThenClosed 0 .onClose := attended_of_take (by decide +kernel)
  exact ⟨hidle, hattended, ((closings refusedThenClosed 0).2.2.2.2 hidle).2 hattended⟩

/-- The end is not told once only: the consumer is called for a failed handshake and called again when
the socket is closed. -/
theorem called_twice_refusedThenClosed :
    (History.run refusedThenClosed).world.callbacks.count (0, .closed) = 2 := by decide

end Socket

end PollSocket
