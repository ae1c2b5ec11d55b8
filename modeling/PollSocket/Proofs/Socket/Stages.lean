import PollSocket.Proofs.Socket.Life

set_option autoImplicit false

/-!
# Stages of a life

A socket has issued nothing yet, waits for the answer to its handshake, was refused, or has got a
session: `Life.Stage`. What was issued, what is in flight and what the handshake came to belong to the
stage. `Life.Sane` is the stage with what the agenda and the flags of a socket stand for; every turn
keeps it (`Life.Sane.turn`), so it holds of every socket in every history (`sane_run`).
-/

namespace PollSocket.Socket

variable {d : Deed} {jobs rest : List Job} {batch : List String}

/-- The deed completes the handshake. -/
def Deed.greets : Deed → Bool
  | .handshakeSucceeded _ => true
  | .handshakeMalformed _ => true
  | .handshakeFailed => true
  | _ => false

/-- The deed completes the handshake, but brings no session. -/
def Deed.refuses : Deed → Bool
  | .handshakeMalformed _ => true
  | .handshakeFailed => true
  | _ => false

/-- The deed completes a drain, but without a proper answer. -/
def Deed.spoils : Deed → Bool
  | .drainMalformed _ _ => true
  | .drainFailed _ => true
  | _ => false

namespace Life

/-- What the handshake came to. -/
def greetings (l : Life) : List Deed := l.trail.filter Deed.greets

/-- How far the handshake is. -/
inductive Stage (l : Life) : Prop
  | silent (hissued : l.issued = []) (hflight : l.flight = none)
    (hsession : l.session = .unassigned) (hstate : l.state ≠ .opened) (hgreetings : l.greetings = [])
    (hfirst : l.trail = [] → l.state = .connecting)
  | greeting (hissued : l.issued = [none]) (hflight : l.flight = some none)
    (hsession : l.session = .unassigned) (hstate : l.state ≠ .opened) (hgreetings : l.greetings = [])
    (hstarted : l.trail ≠ [])
  | refused (d : Deed) (hd : d.refuses = true) (hissued : l.issued = [none])
    (hflight : l.flight = none) (hsession : l.session = .unassigned) (hstate : l.state ≠ .opened)
    (hgreetings : l.greetings = [d])
  | accepted (id : String) (batches : List (List String))
    (hissued : l.issued = none :: batches.map some) (hflight : l.flight ≠ some none)
    (hsession : l.session = .assigned id) (hgreetings : l.greetings = [.handshakeSucceeded id])

/-- What holds of a life between turns. -/
structure Sane (l : Life) : Prop where
  stage : l.Stage
  /-- A response that is being delivered is the one of the drain in flight. -/
  delivering : .resume ∈ l.agenda → ∃ batch, l.flight = some (some batch)
  single : l.agenda.count .resume ≤ 1
  /-- The socket knows how many messages its drain in flight carries. -/
  weighed : ∀ batch, l.flight = some (some batch) → l.outbound = batch.length
  closing : l.closing = true ↔ .closeWhenDrained ∈ l.trail
  opening : .emit .opened ∈ l.agenda → l.state = .opened
  /-- Closing is looked at once more only after a malformed answer. -/
  regret : .closeIfClosing ∈ l.agenda → ∃ d ∈ l.trail, d.spoils = true

variable {l k : Life}

theorem agenda_drain (l : Life) : l.drain.agenda = l.agenda := by
  unfold drain
  split <;> rfl

namespace Stage

/-- A drain in flight is one of a socket that has a session. -/
theorem accepted_of_flight (h : l.Stage) (hflight : l.flight = some (some batch)) :
    ∃ (id : String) (batches : List (List String)), l.issued = none :: batches.map some ∧ l.session = .assigned id ∧
      l.greetings = [.handshakeSucceeded id] := by
  cases h with
  | silent _ hnone | refused _ _ _ hnone | greeting _ hnone =>
    cases hnone.symm.trans hflight
  | accepted id batches hissued _ hsession hgreetings =>
    exact ⟨id, batches, hissued, hsession, hgreetings⟩

/-- So is a socket that is open. -/
theorem accepted_of_opened (h : l.Stage) (hopened : l.state = .opened) :
    ∃ (id : String) (batches : List (List String)), l.issued = none :: batches.map some ∧ l.flight ≠ some none ∧
      l.session = .assigned id ∧ l.greetings = [.handshakeSucceeded id] := by
  cases h with
  | silent _ _ _ hstate | greeting _ _ _ hstate | refused _ _ _ _ _ hstate =>
    exact absurd hopened hstate
  | accepted id batches hissued hflight hsession hgreetings =>
    exact ⟨id, batches, hissued, hflight, hsession, hgreetings⟩

theorem trail_ne_nil_of_greetings (h : l.greetings = [d]) : l.trail ≠ [] := by
  intro hnil
  rw [greetings, hnil] at h
  cases h

/-- A socket to which nothing was done is as it was created. -/
theorem untouched (h : l.Stage) (hnil : l.trail = []) :
    l.issued = [] ∧ l.flight = none ∧ l.session = .unassigned ∧ l.state = .connecting := by
  cases h with
  | silent hissued hflight hsession _ _ hfirst =>
    exact ⟨hissued, hflight, hsession, hfirst hnil⟩
  | greeting _ _ _ _ _ hstarted => exact absurd hnil hstarted
  | refused _ _ _ _ _ _ hone | accepted _ _ _ _ _ hone =>
    exact absurd hnil (trail_ne_nil_of_greetings hone)

/-- While the handshake is in flight, nothing else was issued and nothing has come of it. -/
theorem greeting_of_flight (h : l.Stage) (hflight : l.flight = some none) :
    l.issued = [none] ∧ l.session = .unassigned ∧ l.state ≠ .opened ∧ l.greetings = [] := by
  cases h with
  | silent _ hnone | refused _ _ _ hnone =>
    cases hnone.symm.trans hflight
  | accepted _ _ _ hne => exact absurd hflight hne
  | greeting hissued _ hsession hne hgreetings => exact ⟨hissued, hsession, hne, hgreetings⟩

end Stage

/-! ## Turns that touch no call -/

/-- A change that touches neither the calls nor the session of a socket: it may be closed, something
that completes no handshake may have been done to it, and jobs may be added or dropped. -/
structure Mild (l k : Life) : Prop where
  issued : k.issued = l.issued
  flight : k.flight = l.flight
  session : k.session = l.session
  outbound : k.outbound = l.outbound
  state : k.state = l.state ∨ k.state = .closed ∧ k.trail ≠ []
  trail : ∃ deeds, k.trail = l.trail ++ deeds ∧ (∀ d ∈ deeds, d.greets = false) ∧
    (k.closing = true ↔ l.closing = true ∨ .closeWhenDrained ∈ deeds)
  resume : k.agenda.count .resume = l.agenda.count .resume
  prompt : .emit .opened ∉ k.agenda
  regret : .closeIfClosing ∈ k.agenda → .closeIfClosing ∈ l.agenda

/-- The stage is the same as long as calls, session and handshake are. -/
theorem Stage.keep (h : l.Stage) (hissued : k.issued = l.issued) (hflight : k.flight = l.flight)
    (hsession : k.session = l.session) (hstate : k.state = l.state ∨ k.state = .closed ∧ k.trail ≠ [])
    {deeds : List Deed} (htrail : k.trail = l.trail ++ deeds) (hdeeds : ∀ d ∈ deeds, d.greets = false) :
    k.Stage := by
  have hgreetings : k.greetings = l.greetings := by
    have hnone : deeds.filter Deed.greets = [] := by
      simpa [List.filter_eq_nil_iff] using hdeeds
    rw [greetings, htrail, List.filter_append, hnone, List.append_nil]
    rfl
  have hopened : l.state ≠ .opened → k.state ≠ .opened := by
    intro hl hk
    rcases hstate with hsame | ⟨hclosed, -⟩
    · exact hl (hsame.symm.trans hk)
    · cases hclosed.symm.trans hk
  cases h with
  | silent hi hf hs hne hnone hfirst =>
    refine .silent (hissued.trans hi) (hflight.trans hf) (hsession.trans hs) (hopened hne)
      (hgreetings.trans hnone) fun hk => ?_
    -- a socket may close before its handshake is issued, but not before anything is done
    rcases hstate with hsame | ⟨-, hsome⟩
    · rw [htrail] at hk
      exact hsame.trans (hfirst (List.append_eq_nil_iff.1 hk).1)
    · exact absurd hk hsome
  | greeting hi hf hs hne hnone hstarted =>
    refine .greeting (hissued.trans hi) (hflight.trans hf) (hsession.trans hs) (hopened hne)
      (hgreetings.trans hnone) fun hk => hstarted ?_
    rw [htrail] at hk
    exact (List.append_eq_nil_iff.1 hk).1
  | refused d hd hi hf hs hne hone =>
    exact .refused d hd (hissued.trans hi) (hflight.trans hf) (hsession.trans hs) (hopened hne)
      (hgreetings.trans hone)
  | accepted id batches hi hf hs hone =>
    exact .accepted id batches (hissued.trans hi) (by rwa [hflight]) (hsession.trans hs)
      (hgreetings.trans hone)

namespace Sane

variable (h : l.Sane)
include h

theorem mild (m : l.Mild k) : k.Sane := by
  obtain ⟨deeds, htrail, hdeeds, hclosing⟩ := m.trail
  constructor
  · exact h.stage.keep m.issued m.flight m.session m.state htrail hdeeds
  · intro hk
    rw [m.flight]
    -- deliveries are counted, so the one that goes on is the one that was planned
    apply h.delivering
    rw [← List.count_pos_iff, ← m.resume, List.count_pos_iff]
    exact hk
  · rw [m.resume]
    exact h.single
  · rw [m.flight, m.outbound]
    exact h.weighed
  · rw [hclosing, htrail, List.mem_append, h.closing]
  · intro hk
    exact absurd hk m.prompt
  · intro hk
    obtain ⟨d, hd, hspoils⟩ := h.regret (m.regret hk)
    exact ⟨d, by rw [htrail]; exact List.mem_append_left _ hd, hspoils⟩

/-- Something is done that completes nothing and starts no closing. -/
theorem did (hprompt : .emit .opened ∉ l.agenda) (hgreets : d.greets = false)
    (hd : d ≠ .closeWhenDrained) : ({ l with trail := l.trail ++ [d] } : Life).Sane :=
  h.mild
    { issued := rfl, flight := rfl, session := rfl, outbound := rfl, state := Or.inl rfl
      trail := ⟨[d], rfl, by simpa using hgreets, by simp [hd.symm]⟩
      resume := rfl, prompt := hprompt, regret := id }

/-- Messages are queued or taken from the queue. -/
theorem queue (pending : List String) : ({ l with pending } : Life).Sane where
  stage := h.stage.keep rfl rfl rfl (Or.inl rfl) (List.append_nil _).symm (by simp)
  __ := h

theorem close (hprompt : .emit .opened ∉ l.agenda) (htrail : l.trail ≠ []) : l.close.Sane := by
  have hagenda : ∀ j, j ≠ .emit .closed → l.close.agenda.count j = l.agenda.count j := by
    intro j hj
    unfold Life.close
    split <;> simp [hj.symm]
  have hmem : ∀ j, j ≠ .emit .closed → (j ∈ l.close.agenda ↔ j ∈ l.agenda) := by
    intro j hj
    rw [← List.count_pos_iff, hagenda j hj, List.count_pos_iff]
  exact h.mild
    { issued := rfl, flight := rfl, session := rfl, outbound := rfl
      state := Or.inr ⟨rfl, htrail⟩
      trail := ⟨[], (List.append_nil _).symm, by simp, by simp [Life.close]⟩
      resume := hagenda _ (by simp)
      prompt hk := hprompt ((hmem _ (by simp)).1 hk)
      regret := (hmem _ (by simp)).1 }

/-- A socket that is to close once drained knows that it was asked to. -/
theorem trail_ne_nil (hclosing : l.closing = true) : l.trail ≠ [] :=
  List.ne_nil_of_mem (h.closing.1 hclosing)

theorem closeIfDrained (hprompt : .emit .opened ∉ l.agenda) : l.closeIfDrained.Sane := by
  unfold Life.closeIfDrained
  split
  next hcond => exact h.close hprompt (h.trail_ne_nil hcond.1)
  next => exact h

theorem drain : l.drain.Sane := by
  unfold Life.drain
  split
  next hcond =>
    -- an open socket has a session, so its drain follows the handshake
    obtain ⟨id, batches, hissued, -, hsession, hgreetings⟩ := h.stage.accepted_of_opened hcond.1
    constructor
    · refine .accepted id (batches ++ [l.pending]) ?_ (by simp [issue]) hsession hgreetings
      show l.issued ++ [some l.pending] = _
      simp [hissued]
    · exact fun _ => ⟨l.pending, rfl⟩
    · exact h.single
    · intro batch hbatch
      cases hbatch
      rfl
    · exact h.closing
    · exact h.opening
    · exact h.regret
  next => exact h

/-- The call in flight has come to its end, and its response is not being delivered. -/
theorem land (hresume : .resume ∉ l.agenda) (hflight : l.flight = some (some batch)) : l.land.Sane := by
  obtain ⟨id, batches, hissued, hsession, hgreetings⟩ := h.stage.accepted_of_flight hflight
  exact
    { stage := .accepted id batches hissued (by simp [Life.land]) hsession hgreetings
      delivering hk := absurd hk hresume
      __ := h
      weighed b hb := by cases hb
      regret := h.regret }

/-! ## Completions of the handshake -/

/-- The handshake is completed without a session. -/
theorem refuse (hprompt : .emit .opened ∉ l.agenda) (hd : d.refuses = true)
    (hflight : l.flight = some none) (hresume : .resume ∉ l.agenda)
    (hjobs : ∀ j ∈ jobs, ∃ event, j = .emit event ∧ event ≠ .opened) :
    (({ l with trail := l.trail ++ [d] } : Life).land.push jobs).Sane := by
  have hgreets : d.greets = true := by
    cases d <;> first | rfl | cases hd
  have hnew : d ≠ .closeWhenDrained := by
    rintro rfl
    cases hd
  have hmem : ∀ j, j ∈ jobs ++ l.agenda → j ∈ l.agenda ∨ ∃ event, j = .emit event ∧ event ≠ .opened := by
    intro j hj
    rcases List.mem_append.1 hj with hj | hj
    · exact Or.inr (hjobs j hj)
    · exact Or.inl hj
  -- no response is delivered while the handshake is in flight
  have hnone : .resume ∉ jobs ++ l.agenda := by
    intro hk
    rcases hmem _ hk with hk | ⟨event, heq, -⟩
    · exact hresume hk
    · cases heq
  obtain ⟨hissued, hsession, hne, hgreetings⟩ := h.stage.greeting_of_flight hflight
  constructor
  · refine .refused d hd hissued rfl hsession hne ?_
    show (l.trail ++ [d]).filter Deed.greets = [d]
    rw [List.filter_append, show l.trail.filter Deed.greets = [] from hgreetings]
    simp [hgreets]
  · exact fun hk => absurd hk hnone
  · exact (List.count_eq_zero.2 hnone).trans_le (Nat.zero_le 1)
  · rintro batch ⟨⟩
  · show l.closing = true ↔ .closeWhenDrained ∈ l.trail ++ [d]
    simp [h.closing, hnew.symm]
  · intro hk
    rcases hmem _ hk with hk | ⟨event, heq, hne⟩
    · exact absurd hk hprompt
    · cases heq
      exact absurd rfl hne
  · intro hk
    rcases hmem _ hk with hk | ⟨event, heq, -⟩
    · obtain ⟨e, he, hspoils⟩ := h.regret hk
      exact ⟨e, List.mem_append_left _ he, hspoils⟩
    · cases heq

/-- The handshake is completed with a session; a socket that is closed does not open. -/
theorem accept {id : String} (hflight : l.flight = some none) (hresume : .resume ∉ l.agenda) :
    (({ l with trail := l.trail ++ [.handshakeSucceeded id] } : Life).execute
      (.handshakeSucceeded id)).Sane := by
  -- the session first: it is assigned to a closed socket too
  have hassigned : ({ l with
      trail := l.trail ++ [.handshakeSucceeded id], flight := none,
      session := .assigned id } : Life).Sane := by
    obtain ⟨hissued, -, -, hgreetings⟩ := h.stage.greeting_of_flight hflight
    constructor
    · refine .accepted id [] hissued (by simp) rfl ?_
      show (l.trail ++ [Deed.handshakeSucceeded id]).filter Deed.greets = _
      rw [List.filter_append, show l.trail.filter Deed.greets = [] from hgreetings]
      rfl
    · exact fun hk => absurd hk hresume
    · exact h.single
    · rintro batch ⟨⟩
    · show l.closing = true ↔ .closeWhenDrained ∈ l.trail ++ [.handshakeSucceeded id]
      simp [h.closing]
    · exact h.opening
    · intro hk
      obtain ⟨e, he, hspoils⟩ := h.regret hk
      exact ⟨e, List.mem_append_left _ he, hspoils⟩
  simp only [execute]
  split
  · obtain ⟨hstage, -, -, -, hclosing, -, hregret⟩ := hassigned
    constructor
    · cases hstage with
      | silent _ _ hsession | greeting _ _ hsession | refused _ _ _ _ hsession => cases hsession
      | accepted id' batches hissued hne hsession hgreetings =>
        exact .accepted id' batches hissued hne hsession hgreetings
    · intro hk
      exact absurd hk (by simpa [push, Life.land] using hresume)
    · simpa [push, Life.land] using h.single
    · rintro batch ⟨⟩
    · exact hclosing
    · exact fun _ => rfl
    · intro hk
      exact hregret (by simpa [push, Life.land] using hk)
  · exact hassigned

/-- The handshake is issued before anything else is done. -/
theorem establish (hfirst : l.trail = []) :
    (({ l with trail := l.trail ++ [.establish] } : Life).execute .establish).Sane := by
  obtain ⟨hissued, hflight, hsession, hconnecting⟩ := h.stage.untouched hfirst
  constructor
  · refine .greeting (by simp [execute, issue, hissued]) rfl hsession ?_ ?_ (by simp [execute, issue])
    · show l.state ≠ .opened
      simp [hconnecting]
    · show (l.trail ++ [Deed.establish]).filter Deed.greets = []
      rw [hfirst]
      rfl
  · intro hk
    obtain ⟨batch, hsome⟩ := h.delivering hk
    cases hflight.symm.trans hsome
  · exact h.single
  · rintro batch ⟨⟩
  · show l.closing = true ↔ .closeWhenDrained ∈ l.trail ++ [.establish]
    simp [h.closing]
  · exact h.opening
  · intro hk
    obtain ⟨e, he, hspoils⟩ := h.regret hk
    exact ⟨e, List.mem_append_left _ he, hspoils⟩

/-! ## Turns -/

/-- More jobs, none of which is a call of the consumer that the socket has opened. -/
theorem push (hprompt : .emit .opened ∉ l.agenda) (hresume : .resume ∉ jobs)
    (hopened : .emit .opened ∉ jobs) (hregret : .closeIfClosing ∈ jobs → ∃ d ∈ l.trail, d.spoils = true) :
    (l.push jobs).Sane where
  stage := h.stage.keep rfl rfl rfl (Or.inl rfl) (List.append_nil _).symm (by simp)
  delivering hk := h.delivering ((List.mem_append.1 hk).resolve_left hresume)
  single := by
    show (jobs ++ l.agenda).count .resume ≤ 1
    rw [List.count_append, List.count_eq_zero.2 hresume, Nat.zero_add]
    exact h.single
  __ := h
  opening hk := absurd ((List.mem_append.1 hk).resolve_left hopened) hprompt
  regret hk := (List.mem_append.1 hk).elim hregret h.regret

/-- The messages of a response are to be delivered. -/
theorem deliver (hprompt : .emit .opened ∉ l.agenda) (hflight : l.flight = some (some batch))
    (hresume : .resume ∉ l.agenda) (messages : List String) :
    (l.push [.dispatch messages, .resume]).Sane where
  stage := h.stage.keep rfl rfl rfl (Or.inl rfl) (List.append_nil _).symm (by simp)
  delivering _ := ⟨batch, hflight⟩
  single := by
    show ([Job.dispatch messages, .resume] ++ l.agenda).count .resume ≤ 1
    rw [List.count_append, List.count_eq_zero.2 hresume]
    simp
  __ := h
  opening hk := absurd ((List.mem_append.1 hk).resolve_left (by simp)) hprompt
  regret hk := h.regret ((List.mem_append.1 hk).resolve_left (by simp))

theorem execute (hd : l.Allows d) (hprompt : .emit .opened ∉ l.agenda) :
    (({ l with trail := l.trail ++ [d] } : Life).execute d).Sane := by
  cases d with
  | establish => exact h.establish hd
  | send text =>
    have hqueued := (h.did hprompt (d := .send text) rfl (by simp)).queue (l.pending ++ [text])
    simp only [Life.execute]
    split
    · exact hqueued
    · exact hqueued.drain
  | close => exact (h.did hprompt rfl (by simp)).close hprompt (by simp)
  | closeWhenDrained =>
    refine closeIfDrained (h.mild ?_) hprompt
    exact
      { issued := rfl, flight := rfl, session := rfl, outbound := rfl, state := Or.inl rfl
        trail := ⟨[.closeWhenDrained], rfl, by simp [Deed.greets], by simp⟩
        resume := rfl, prompt := hprompt, regret := id }
  | handle => exact h.did hprompt rfl (by simp)
  | handshakeSucceeded id => exact h.accept hd.1 hd.2
  | handshakeMalformed reason | handshakeFailed => exact h.refuse hprompt rfl hd.1 hd.2 (by simp)
  | drainSucceeded batch messages =>
    obtain ⟨hflight, hresume⟩ := hd
    have hdid := h.did hprompt (d := .drainSucceeded batch messages) rfl (by simp)
    exact hdid.deliver hprompt hflight hresume messages
  | drainMalformed batch reason =>
    have hlanded := (h.did hprompt (d := .drainMalformed batch reason) rfl (by simp)).land hd.2 hd.1
    exact hlanded.push hprompt (by simp) (by simp) fun _ =>
      ⟨.drainMalformed batch reason, by simp [Life.land], rfl⟩
  | drainFailed batch =>
    have hlanded := ((h.did hprompt (d := .drainFailed batch) rfl (by simp)).land hd.2 hd.1).queue
      (if l.requeue then batch ++ l.pending else l.pending)
    simp only [Life.execute]
    split
    · exact hlanded.close hprompt (by simp [Life.land])
    · exact hlanded

/-- A job other than the end of a delivery is taken off the agenda. -/
theorem pop {j : Job} (hj : l.agenda = j :: rest) (hne : j ≠ .resume)
    (hprompt : .emit .opened ∉ rest) : ({ l with agenda := rest } : Life).Sane := by
  refine h.mild
    { issued := rfl, flight := rfl, session := rfl, outbound := rfl, state := Or.inl rfl
      trail := ⟨[], (List.append_nil _).symm, by simp, by simp⟩
      resume := ?_, prompt := hprompt, regret := fun hk => ?_ }
  · rw [hj, List.count_cons_of_ne hne]
  · rw [hj]
    exact List.mem_cons_of_mem j hk

/-- The end of a delivery is taken off the agenda, and its call has come to its end. -/
theorem pop_resume (hj : l.agenda = .resume :: rest) (hprompt : .emit .opened ∉ rest) :
    ({ l with agenda := rest } : Life).land.Sane := by
  obtain ⟨batch, hflight⟩ := h.delivering (by rw [hj]; exact List.mem_cons_self)
  obtain ⟨id, batches, hissued, hsession, hgreetings⟩ := h.stage.accepted_of_flight hflight
  -- this was the one delivery, so none is left
  have hsingle := h.single
  rw [hj, List.count_cons_self] at hsingle
  have hresume : .resume ∉ rest := List.count_eq_zero.1 (Nat.le_zero.1 (Nat.le_of_succ_le_succ hsingle))
  exact
    { stage := .accepted id batches hissued (by simp [Life.land]) hsession hgreetings
      delivering hk := absurd hk hresume
      single := (List.count_eq_zero.2 hresume).trans_le (Nat.zero_le 1)
      weighed := by rintro batch ⟨⟩
      closing := h.closing
      opening hk := absurd hk hprompt
      regret hk := h.regret (by rw [hj]; exact List.mem_cons_of_mem _ hk) }

theorem discharge {j : Job} (hj : l.agenda = j :: rest) (hprompt : .emit .opened ∉ rest) :
    (({ l with agenda := rest } : Life).discharge j).Sane := by
  cases j with
  | emit event =>
    have hpopped := h.pop hj (by simp) hprompt
    exact ⟨hpopped.stage.keep rfl rfl rfl (Or.inl rfl) (List.append_nil _).symm (by simp),
      hpopped.delivering, hpopped.single, hpopped.weighed, hpopped.closing, hpopped.opening,
      hpopped.regret⟩
  | dispatch messages =>
    have hpopped := h.pop hj (by simp) hprompt
    cases messages with
    | nil => exact hpopped
    | cons m more => exact hpopped.push hprompt (by simp) (by simp) (by simp)
  | resume =>
    refine closeIfDrained (h.pop_resume hj hprompt).drain ?_
    rw [agenda_drain]
    exact hprompt
  | begin =>
    refine closeIfDrained (h.pop hj (by simp) hprompt).drain ?_
    rw [agenda_drain]
    exact hprompt
  | closeIfClosing =>
    have hpopped := h.pop hj (by simp) hprompt
    simp only [Life.discharge]
    split
    next hclosing => exact hpopped.close hprompt (hpopped.trail_ne_nil hclosing)
    next => exact hpopped

/-- Every turn keeps a life sane. -/
theorem turn (t : l.Turn k) : k.Sane := by
  cases t with
  | rest => exact h
  | created requeue _ =>
    exact ⟨h.stage.keep rfl rfl rfl (Or.inl rfl) (List.append_nil _).symm (by simp), h.delivering,
      h.single, h.weighed, h.closing, h.opening, h.regret⟩
  | deed d hd hprompt => exact h.execute hd hprompt
  | job j rest hj hprompt => exact h.discharge hj hprompt
  | caught name value hprompt => exact h.push hprompt (by simp) (by simp) (by simp)

end Sane

end Life

/-- Every socket is sane in every history. -/
theorem sane_run (moves : List Move) (s : Nat) : ((History.run moves).life s).Sane := by
  refine Life.holds_run ?_ (fun h t => h.turn t) moves s
  exact
    { stage := .silent rfl rfl rfl (by simp) rfl fun _ => rfl
      delivering := by simp
      single := by simp
      weighed := by simp
      closing := by simp
      opening := by simp
      regret := by simp }

end PollSocket.Socket
