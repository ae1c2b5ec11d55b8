import PollSocket.Proofs.Socket.Closing

set_option autoImplicit false

/-!
# Continuous polling

An open socket keeps a drain in flight. It has none between tasks only if its last drain came to nothing
and nothing was sent since; what is sent next then goes out with everything that waits. A proper answer
is followed by the next drain before the task that brought it is over, unless the socket closes
(`continuous_polling`).

That a task is not over shows on the agenda, which is a stack: what a task has planned stands above the
run that has taken it, and stays there until it is done (`stacks_after`).
-/

namespace PollSocket.Socket

variable {d : Deed} {h : History} {j : Job} {below : List Duty} {s : Nat} {w : World}

/-- The deed completes a call with a proper answer. -/
def Deed.brings : Deed → Bool
  | .handshakeSucceeded _ => true
  | .drainSucceeded _ _ => true
  | _ => false

namespace Life

variable {l k : Life}

/-! ## Open sockets without a call in flight -/

/-- What was sent or completed last. -/
def lastStir (l : Life) : Option Deed := l.trail.reverse.find? Deed.stirs

/-- An open socket that has nothing in flight is about to drain, or a drain came to nothing last. -/
theorem polls_run (moves : List Move) (s : Nat) (hopened : ((History.run moves).life s).state = .opened)
    (hfree : ((History.run moves).life s).flight = none) : let l := (History.run moves).life s
    .begin ∈ l.agenda ∨ ∃ d, l.lastStir = some d ∧ d.spoils = true := by
  refine (watchful_run moves s hopened hfree).imp_right ?_
  rintro ⟨before, d, after, htrail, hspoils, hquiet, -⟩
  refine ⟨d, ?_, hspoils⟩
  have hstirs : d.stirs = true := by
    cases d with
    | drainMalformed | drainFailed => rfl
    | _ => cases hspoils
  have hnone : after.reverse.find? Deed.stirs = none :=
    List.find?_eq_none.2 fun e he => by simp [hquiet e (List.mem_reverse.1 he)]
  rw [lastStir, htrail, List.reverse_append, List.reverse_cons, List.append_assoc, List.find?_append, hnone,
    Option.none_or, List.singleton_append, List.find?_cons_of_pos hstirs]

/-- The last deed that sends or completes, with what was done before and after it. -/
theorem split_of_lastStir (h : l.lastStir = some d) :
    ∃ before after, l.trail = before ++ d :: after ∧ ∀ e ∈ after, e.stirs = false := by
  obtain ⟨-, after, before, hsplit, hquiet⟩ := List.find?_eq_some_iff_append.1 h
  refine ⟨before.reverse, after.reverse, ?_, fun e he => ?_⟩
  · simpa using hsplit
  · simpa using hquiet e (List.mem_reverse.1 he)

/-! ## Waiting for the next message -/

theorem resting_run (moves more : List Move) (h : ((History.run moves).life s).Resting)
    (hdeeds : ∀ d ∈ ((History.run (moves ++ more)).trail s).drop
      ((History.run moves).trail s).length, d.sent? = none) :
    let l := (History.run moves).life s
    let k := (History.run (moves ++ more)).life s
    k.state = .closed ∨ k.Resting ∧ k.pending = l.pending ∧ k.issued = l.issued := by
  intro l k
  refine kept_since (P := fun i => i.state = .closed ∨
    i.Resting ∧ i.pending = l.pending ∧ i.issued = l.issued) ?_ moves more (Or.inr ⟨h, rfl, rfl⟩) hdeeds
  rintro i j hsane (hclosed | ⟨hrests, hpending, hissued⟩) t hquiet
  · exact Or.inl (t.closed hclosed)
  · refine (hrests.turn hsane t hquiet).imp And.left ?_
    rintro ⟨hrests', hpending', hissued'⟩
    exact ⟨hrests', hpending'.trans hpending, hissued'.trans hissued⟩

/-- A message that is sent while the socket rests goes out at once, behind all that waited. -/
theorem Resting.send (h : l.Resting) (hl : l.Sane) (t : l.Turn k) {text : String}
    (htrail : k.trail = l.trail ++ [.send text]) :
    k.issued = l.issued ++ [some (l.pending ++ [text])] ∧ k.pending = [] := by
  obtain ⟨-, rfl⟩ := t.of_trail htrail
  obtain ⟨id, -, -, -, hsession, -⟩ := hl.stage.accepted_of_opened h.state
  have hready : (l.flight.isSome || !l.session.isAssigned) = false := by
    rw [h.flight, hsession]
    rfl
  set queued : Life := { l with trail := l.trail ++ [.send text], pending := l.pending ++ [text] }
  have hdrains : ({ l with trail := l.trail ++ [.send text] } : Life).execute (.send text) =
      queued.drain := by
    simp only [execute, hready]
    rfl
  rw [hdrains, drain_eq_issue (l := queued) h.state h.flight]
  exact ⟨rfl, rfl⟩

/-! ## After a proper answer -/

theorem issued_closeIfDrained (l : Life) : l.closeIfDrained.issued = l.issued := by
  unfold closeIfDrained
  split <;> rfl

theorem flight_closeIfDrained (l : Life) : l.closeIfDrained.flight = l.flight := by
  unfold closeIfDrained
  split <;> rfl

theorem flight_drain_of_issued (h : l.drain.issued = l.issued) : l.drain.flight = l.flight := by
  unfold drain at h ⊢
  split
  next hcond =>
    rw [if_pos hcond] at h
    exact absurd h (by simp [issue])
  next => rfl

/-- What has nothing in flight gets a call in flight only by issuing it. -/
theorem Turn.flight_eq_none (t : l.Turn k) (hfree : l.flight = none) (hissued : k.issued = l.issued) :
    k.flight = none := by
  -- whatever leads to a drain, it drains a socket that has nothing in flight
  have hdrain : ∀ {i : Life}, i.flight = none → i.issued = l.issued →
      i.drain.issued = l.issued → i.drain.flight = none := by
    intro i hnone hsame hafter
    exact (flight_drain_of_issued (hafter.trans hsame.symm)).trans hnone
  cases t with
  | rest | created | caught => exact hfree
  | deed d hd =>
    cases d with
    | establish => exact absurd hissued (by simp [execute, issue])
    | send text =>
      simp only [execute] at hissued ⊢
      split at hissued
      next hcond =>
        rw [if_pos hcond]
        exact hfree
      next hcond =>
        rw [if_neg hcond]
        refine hdrain ?_ ?_ hissued
        · exact hfree
        · rfl
    | closeWhenDrained =>
      simp only [execute, flight_closeIfDrained]
      exact hfree
    | handshakeSucceeded id | drainFailed batch =>
      simp only [execute]
      split <;> rfl
    | close | handle | drainSucceeded => exact hfree
    | _ => rfl
  | job j rest hj =>
    cases j with
    | emit event => exact hfree
    | dispatch messages => cases messages <;> exact hfree
    | resume =>
      simp only [discharge, issued_closeIfDrained, flight_closeIfDrained] at hissued ⊢
      exact hdrain (i := ({ l with agenda := rest } : Life).land) rfl rfl hissued
    | begin =>
      simp only [discharge, issued_closeIfDrained, flight_closeIfDrained] at hissued ⊢
      exact hdrain (i := { l with agenda := rest }) hfree rfl hissued
    | closeIfClosing =>
      simp only [discharge]
      split <;> exact hfree

/-- The socket drains by the job: the call in flight is given up before, or there is none. -/
def Poised (l : Life) (j : Job) : Prop := j = .resume ∨ j = .begin ∧ l.flight = none

theorem Poised.issued (h : l.Poised j) (hopened : l.state = .opened) :
    (l.discharge j).issued = l.issued ++ [some l.pending] := by
  rcases h with rfl | ⟨rfl, hfree⟩
  · simp only [discharge, issued_closeIfDrained]
    rw [drain_eq_issue (l := l.land) hopened rfl]
    rfl
  · simp only [discharge, issued_closeIfDrained]
    rw [drain_eq_issue hopened hfree]
    rfl

/-- The socket has closed or issued a call, since it had issued `n`. -/
def WentOn (l : Life) (n : Nat) : Prop := l.state = .closed ∨ n < l.issued.length

theorem WentOn.turn {n : Nat} (h : l.WentOn n) (hl : l.Sane) (t : l.Turn k) : k.WentOn n := by
  rcases h with hclosed | hlt
  · exact Or.inl (t.closed hclosed)
  · right
    rcases t.issued hl with hsame | ⟨-, hnone, -⟩ | ⟨-, batch, hmore⟩
    · rwa [hsame]
    · simp [hnone] at hlt
    · rw [hmore, List.length_append]
      exact Nat.lt_add_right _ hlt

/-- A socket that is poised stays so until it closes or issues a call. -/
theorem Poised.turn (h : l.Poised j) (hl : l.Sane) (hopened : l.state = .opened) (t : l.Turn k) :
    k.WentOn l.issued.length ∨ k.state = .opened ∧ k.issued = l.issued ∧ k.Poised j := by
  have hforward := t.forward
  rw [hopened] at hforward
  cases hstate : k.state with
  | connecting =>
    rw [hstate] at hforward
    exact absurd hforward (by decide)
  | closed => exact Or.inl (Or.inl hstate)
  | opened =>
    rcases t.issued hl with hsame | ⟨-, hnone, hone⟩ | ⟨-, batch, hmore⟩
    · exact Or.inr ⟨rfl, hsame, h.imp_right fun ⟨hj, hfree⟩ => ⟨hj, t.flight_eq_none hfree hsame⟩⟩
    · exact Or.inl (Or.inr (by simp [hnone, hone]))
    · exact Or.inl (Or.inr (by simp [hmore]))

end Life

/-! ## The agenda is a stack -/

/-- What stands below a duty that is no part of a handler is out of reach of what a handler throws. -/
theorem suffix_of_leave {acts rest : List Duty} {d : Duty} {event : Event} (hd : d.inner = false)
    (hacts : ∀ e ∈ acts, e.inner = true) (h : d :: below <:+ acts ++ .leave s event :: rest) :
    d :: below <:+ rest := by
  obtain ⟨top, htop⟩ := h
  rcases List.append_eq_append_iff.1 htop with ⟨mid, hmid, hbelow⟩ | ⟨mid, -, hmid⟩
  · -- the duty would be an act, or the end of the handler
    cases mid with
    | nil =>
      cases hbelow
      cases hd
    | cons e more =>
      cases hbelow
      have hin := hacts d (by rw [hmid]; simp)
      cases hd.symm.trans hin
  · cases mid with
    | nil =>
      cases hmid
      cases hd
    | cons e more =>
      cases hmid
      exact List.suffix_append _ _

theorem World.stacks_perform (hin : insideHandler w.agenda = true) (hnested : Nested w.agenda) {d : Duty}
    (hd : d.inner = false) (h : d :: below <:+ w.agenda) (s : Nat) (data : String) (a : Act) :
    d :: below <:+ (w.perform s data a).agenda := by
  cases a with
  | send | close | closeWhenDrained =>
    simp only [perform, agenda_postOr]
    exact h
  | runLoop => exact h.trans (List.suffix_append _ _)
  | whenData expected script =>
    simp only [perform]
    split
    · exact h.trans (List.suffix_append _ _)
    · exact h
  | throw value =>
    obtain ⟨acts, r, event, rest, hagenda, hacts, hunwind, -⟩ := unwind_nested hin hnested
    rw [hagenda] at h
    have hrest := suffix_of_leave hd hacts h
    simp only [perform, throw, hunwind]
    split
    · exact hrest.trans (List.suffix_append _ _)
    · exact hrest.trans (List.suffix_append _ _)
    · exact hrest
    · exact hrest
  | _ => exact h

/-- A duty is replaced by those that it leads to, unless it is an act. -/
theorem World.agenda_discharge (w : World) {e : Duty} (he : ∀ s data a, e ≠ .act s data a) :
    w.agenda <:+ (w.discharge e).agenda := by
  have hplans : ∀ {v u : World}, v.Plans u → v.agenda <:+ u.agenda := by
    rintro v u ⟨duties, hduties, -⟩
    rw [hduties]
    exact List.suffix_append _ _
  cases e with
  | run ran inside =>
    dsimp only [discharge]
    cases w.loop.next? with
    | none => cases inside <;> exact List.suffix_rfl
    | some next =>
      obtain ⟨t, loop⟩ := next
      have hpushed : w.agenda <:+ (({ w with loop } : World).push [.run (ran + 1) inside]).agenda :=
        List.suffix_append _ _
      exact hpushed.trans (hplans (World.plans_execute _ t))
  | emit s event =>
    dsimp only [discharge, emit]
    split
    · exact List.suffix_rfl
    · exact List.suffix_append _ _
  | act s data a => exact absurd rfl (he s data a)
  | leave => exact List.suffix_rfl
  | dispatch s messages =>
    cases messages with
    | nil => exact List.suffix_rfl
    | cons m more => exact List.suffix_append _ _
  | resume s =>
    refine hplans (World.plans_closeIfDrained s ?_)
    rw [agenda_drain, agenda_release]
  | begin s => exact hplans (World.plans_closeIfDrained s (agenda_drain _ s))
  | closeIfClosing s =>
    dsimp only [discharge]
    split
    · exact hplans (World.plans_close s rfl)
    · exact List.suffix_rfl

/-- A duty that is no part of a handler stays, with all below it, until it is the first one and done. -/
theorem stacks_after (hs : Sound h.toBooks h.world) (m : Move) {d : Duty} (hd : d.inner = false)
    (hin : d :: below <:+ h.world.agenda) :
    d :: below <:+ (h.after m).world.agenda ∨
      h.world.agenda = d :: below ∧ (h.after m).world = ({ h.world with agenda := below }).discharge d := by
  have hmoves := h.moves_after m
  generalize h.after m = k at hmoves ⊢
  cases hmoves with
  | step =>
    show _ <:+ h.world.step.agenda ∨ _ ∧ h.world.step = _
    unfold World.step
    cases hagenda : h.world.agenda with
    | nil =>
      rw [hagenda] at hin
      simp at hin
    | cons e rest =>
      rw [hagenda] at hin
      rcases List.suffix_cons_iff.1 hin with heq | hrest
      · cases heq
        exact Or.inr ⟨rfl, rfl⟩
      · left
        cases e with
        | act s data a =>
          have hnested := hs.shape.nested
          rw [hagenda] at hnested
          exact World.stacks_perform hnested.1 hnested.2 hd hrest s data a
        | _ =>
          refine hrest.trans (World.agenda_discharge { h.world with agenda := rest } ?_)
          simp
  | drive hempty =>
    rw [hempty] at hin
    simp at hin
  | create o =>
    left
    show _ <:+ (h.world.create o).agenda
    rw [World.agenda_create]
    exact hin
  | act a hhandler =>
    exact Or.inl (World.stacks_perform (hs.handler hhandler).1 hs.shape.nested hd hin _ _ a)
  | _ => exact Or.inl hin

/-! ## Histories -/

/-- What is done to a socket is done by a task that a run takes. -/
theorem Sound.taking_of_trail (hs : Sound h.toBooks h.world) {m : Move}
    (htrail : (h.after m).trail s = h.trail s ++ [d]) :
    ∃ t l ran inside rest, h.world.agenda = .run ran inside :: rest ∧ h.world.loop.next? = some (t, l) ∧
      t.deed? h.world s = some d ∧ (h.after m).world =
        (({ h.world with agenda := rest, loop := l } : World).push [.run (ran + 1) inside]).execute t := by
  have he := h.extends_after m
  -- a move that takes no task does nothing to the socket
  have hquiet : (h.after m).taken = h.taken → False := by
    intro htaken
    have hsame := he.trail (s := s) (t := none) hs (by simp [htaken]) (by simp)
    rw [htrail] at hsame
    simp at hsame
  cases m with
  | step =>
    rcases h.world.grows_step with ⟨hnone, -⟩ | ⟨t, l, htake, hn, -⟩
    · exact (hquiet (by rw [show (h.after .step).taken = _ from h.taken_step, hnone]; simp)).elim
    · have hdeed := he.trail (s := s) (t := some t) hs (by rw [← htake]; exact h.taken_step)
        fun c hc => by
          obtain ⟨x, hx, -⟩ := hs.completion hn hc
          exact ⟨x, hx⟩
      rw [htrail, Option.bind_some] at hdeed
      have hd : t.deed? h.world s = some d := by
        have hsingle := List.append_cancel_left hdeed
        cases hcase : t.deed? h.world s with
        | none => simp [hcase] at hsingle
        | some e =>
          rw [hcase, Option.toList_some, List.singleton_inj] at hsingle
          rw [hsingle]
      unfold World.taking? at htake
      split at htake
      next ran inside rest hagenda =>
        refine ⟨t, l, ran, inside, rest, hagenda, hn, hd, ?_⟩
        show h.world.step = _
        simp only [World.step_of_cons hagenda, World.discharge, hn]
      next => cases htake
  | drive | post | act | succeed | fail =>
    refine (hquiet ?_).elim
    unfold History.after
    dsimp only
    split <;> rfl
  | _ => exact (hquiet rfl).elim

/-- A proper answer plans the next drain, above the run that has taken it, unless the socket is closed. -/
theorem World.plans_success (w : World) {c : Nat} {x : Call} (hx : w.calls[c]? = some x)
    {body : List UInt8} (hbrings : (x.success body).brings = true)
    (hstate : ((w.execute (.succeed c body)).socket x.owner).state = .opened)
    (hgreeting : x.batch = none → (w.socket x.owner).state ≠ .opened) :
    ∃ top j, (j = Job.resume ∨ j = .begin ∧ x.batch = none) ∧
      (w.execute (.succeed c body)).agenda = top :: j.duty x.owner :: w.agenda := by
  cases hbatch : x.batch with
  | none =>
    have hexecute : w.execute (.succeed c body) = w.handshakeSucceeded x.owner body := by
      simp only [execute, hx, hbatch]
    rw [hexecute] at hstate ⊢
    rw [Call.success, hbatch] at hbrings
    unfold handshakeSucceeded at hstate ⊢
    cases hdecode : decodeHandshakeResponse body with
    | error reason =>
      rw [hdecode] at hbrings
      cases hbrings
    | ok id =>
      simp only [hdecode] at hstate ⊢
      split at hstate
      next hconnecting =>
        rw [if_pos hconnecting]
        refine ⟨.emit x.owner .opened, .begin, by simp, ?_⟩
        exact congrArg ([Duty.emit x.owner .opened, .begin x.owner] ++ ·) (w.agenda_release x.owner)
      next =>
        -- a socket that does not connect any more was closed meanwhile
        refine absurd ?_ (hgreeting hbatch)
        have hassigned := World.field_update (w.release x.owner) x.owner
          (fun y => { y with session := .assigned id }) (·.state) (fun _ => rfl) x.owner
        have hreleased := w.field_release x.owner (·.state) (fun _ _ => rfl) x.owner
        exact (hassigned.trans hreleased).symm.trans hstate
  | some batch =>
    have hexecute : w.execute (.succeed c body) = w.drainSucceeded x.owner body := by
      simp only [execute, hx, hbatch]
    rw [hexecute]
    rw [Call.success, hbatch] at hbrings
    unfold drainSucceeded
    cases hdecode : decodeDrainResponse body with
    | error reason =>
      rw [hdecode] at hbrings
      cases hbrings
    | ok messages => exact ⟨_, .resume, Or.inl rfl, rfl⟩

/-- What a socket is poised for is done in its turn: the socket drains then, unless it has closed or
issued a call before. -/
theorem poised_run (moves more : List Move) (hpoised : ((History.run moves).life s).Poised j)
    (hopened : ((History.run moves).world.socket s).state = .opened)
    (hin : j.duty s :: below <:+ (History.run moves).world.agenda) : let k := History.run (moves ++ more)
    (k.life s).WentOn ((History.run moves).life s).issued.length ∨
      j.duty s :: below <:+ k.world.agenda ∧ (k.life s).state = .opened ∧
        (k.life s).issued = ((History.run moves).life s).issued ∧ (k.life s).Poised j := by
  have hinner : (j.duty s).inner = false := by cases j <;> rfl
  induction more using List.reverseRecOn with
  | nil =>
    rw [List.append_nil]
    exact Or.inr ⟨hin, hopened, rfl, hpoised⟩
  | append_singleton front m ih =>
    rw [← List.append_assoc, History.run_concat]
    set k := History.run (moves ++ front)
    have hsane : (k.life s).Sane := sane_run _ s
    have hsound : Sound k.toBooks k.world := sound_run _
    have hturn : (k.life s).Turn ((k.after m).life s) := turn_after hsound (ordered_run _) m s
    rcases ih with hdone | ⟨hstack, hstate, hissued, hready⟩
    · exact Or.inl (hdone.turn hsane hturn)
    · rw [← hissued]
      rcases stacks_after hsound m hinner hstack with hstays | ⟨-, hworld⟩
      · exact (hready.turn hsane hstate hturn).imp_right fun ⟨ho, hi, hp⟩ => ⟨hstays, ho, hi, hp⟩
      · -- it is done now
        refine Or.inl (Or.inr ?_)
        set u : World := { k.world with agenda := below }
        have hpoised' : (u.life s [] []).Poised j := hready
        have hlife : ((u.discharge (j.duty s)).life s [] ([] ++ j.event?.toList)).issued = _ :=
          (congrArg Life.issued (u.life_discharge j s)).trans (hpoised'.issued hstate)
        have hcalls : ((k.after m).life s).issued = (k.life s).issued ++ [some (u.life s [] []).pending] := by
          rw [History.life, hworld]
          exact hlife
        rw [hcalls, List.length_append]
        exact Nat.lt_succ_self _

/-- The mark of a socket stands for an outstanding call when no task is being executed. -/
theorem inflight_of_idle (hs : Sound h.toBooks h.world) (hidle : h.world.idle = true)
    (hnone : ∀ c, ¬ h.outstanding s c) : (h.world.socket s).inflight = none := by
  cases hmark : (h.world.socket s).inflight with
  | none => rfl
  | some c =>
    refine absurd ⟨hs.flights.marked hmark, ?_⟩ (hnone c)
    rw [Bool.eq_false_iff]
    intro hdone
    exact not_resume_of_idle hidle s ((hs.flights.newest hmark).1.2 hdone)

/-- Calls that a socket has issued meanwhile. -/
theorem callsOf_of_issued {k : History} (hkeeps : h.world.Keeps k.world)
    {batches : List (Option (List String))} (hissued : (k.life s).issued = (h.life s).issued ++ batches) :
    ∃ more, k.world.callsOf s = h.world.callsOf s ++ more ∧
      more.map (fun c => k.world.calls[c]?.bind (·.batch)) = batches := by
  obtain ⟨more, hmore, -⟩ := hkeeps.callsOf_append s
  refine ⟨more, hmore, ?_⟩
  rw [History.life, History.life, World.issued_life, World.issued_life, hmore, List.map_append] at hissued
  exact (List.append_inj hissued (by simp)).2

theorem length_issued (h : History) (s : Nat) :
    (h.life s).issued.length = (h.world.callsOf s).length := by
  rw [History.life, World.issued_life, List.length_map]

/-- A call that carries a batch is a drain of the session of its socket. -/
theorem Sound.isDrain_of_batch {b : Books} (hs : Sound b w) {c : Nat} {y : Call} (hy : w.calls[c]? = some y)
    {batch : List String} (hbatch : y.batch = some batch) :
    ∃ id, (w.socket y.owner).session = .assigned id ∧
      y.exchange.IsDrain id (w.socket y.owner).protocol batch := by
  have hcall := hs.wired.calls c y hy
  rw [Call.Wired, hbatch] at hcall
  obtain ⟨id, hid, hexchange⟩ := hcall
  refine ⟨id, hid, ?_⟩
  rw [hexchange]
  exact Exchange.isDrain_ofSession _ _ _ _

/-- A task that brings a proper answer is the success of a call. -/
theorem Task.succeed_of_brings {t : Task} (hd : t.deed? w s = some d) (hbrings : d.brings = true) :
    ∃ c body x, t = .succeed c body ∧ w.calls[c]? = some x ∧ x.owner = s ∧ x.success body = d := by
  cases t with
  | succeed c body =>
    obtain ⟨x, hx, hown⟩ := Option.bind_eq_some_iff.1 hd
    obtain ⟨hown, heq⟩ := Option.ite_none_right_eq_some.1 hown
    exact ⟨c, body, x, rfl, hx, hown, Option.some.inj heq⟩
  | fail c =>
    obtain ⟨x, -, hown⟩ := Option.bind_eq_some_iff.1 hd
    obtain ⟨-, ⟨⟩⟩ := Option.ite_none_right_eq_some.1 hown
    unfold Call.failure at hbrings
    split at hbrings <;> cases hbrings
  | _ =>
    obtain ⟨-, ⟨⟩⟩ := Option.ite_none_right_eq_some.1 hd
    cases hbrings

/-- After a proper answer an open socket is poised to drain, above the run that has taken the answer. -/
theorem poised_after (hs : Sound h.toBooks h.world) (ho : Ordered h.taken h.world) (hl : (h.life s).Sane)
    {m : Move} (htrail : (h.after m).trail s = h.trail s ++ [d]) (hbrings : d.brings = true)
    (hopened : ((h.after m).world.socket s).state = .opened) :
    ∃ top j ran inside rest, h.world.agenda = .run ran inside :: rest ∧ h.world.callsOf s ≠ [] ∧
      (h.after m).world.agenda = top :: j.duty s :: .run (ran + 1) inside :: rest ∧
      ((h.after m).life s).Poised j := by
  obtain ⟨t, l, ran, inside, rest, hagenda, -, hdeed, hworld⟩ := hs.taking_of_trail htrail
  obtain ⟨c, body, x, rfl, hx, rfl, rfl⟩ := Task.succeed_of_brings hdeed hbrings
  obtain ⟨hallows, hlife⟩ := (turn_after hs ho m x.owner).of_trail htrail
  set u : World := ({ h.world with agenda := rest, loop := l } : World).push [.run (ran + 1) inside]
  -- an answer to the handshake finds a socket that is not open yet, and leaves nothing in flight
  have hgreeting : x.batch = none → (h.life x.owner).state ≠ .opened ∧
      ((h.after m).life x.owner).flight = none := by
    intro hnone
    rw [hlife]
    rw [Call.success, hnone] at hbrings hallows ⊢
    cases hdecode : decodeHandshakeResponse body with
    | error reason =>
      rw [hdecode] at hbrings
      cases hbrings
    | ok id =>
      rw [hdecode] at hallows
      refine ⟨(hl.stage.greeting_of_flight hallows.1).2.2.1, ?_⟩
      simp only [Life.execute]
      split <;> rfl
  rw [hworld] at hopened
  obtain ⟨top, j, hj, htop⟩ := u.plans_success hx hbrings hopened fun hnone => (hgreeting hnone).1
  refine ⟨top, j, ran, inside, rest, hagenda, ?_, ?_, ?_⟩
  · exact List.ne_nil_of_mem (World.mem_callsOf.2 ⟨x, hx, rfl⟩)
  · rw [hworld]
    exact htop
  · exact hj.imp_right fun hbegin => ⟨hbegin.1, (hgreeting hbegin.2).2⟩

/-- Where an open socket has nothing in flight, the deed that rouses it last is a drain that came to nothing. -/
theorem spoiled_of_resting (moves : List Move) (hrests : ((History.run moves).life s).Resting)
    (hagenda : ((History.run moves).life s).agenda = []) :
    ∃ before d after, (History.run moves).trail s = before ++ d :: after ∧ d.spoils = true ∧
      ∀ e ∈ after, e.completes = false ∧ e.sent? = none := by
  rcases Life.polls_run moves s hrests.state hrests.flight with hmem | ⟨d, hlast, hspoils⟩
  · rw [hagenda] at hmem
    cases hmem
  · obtain ⟨before, after, hsplit, hquiet⟩ := Life.split_of_lastStir hlast
    refine ⟨before, d, after, hsplit, hspoils, fun e he => ?_⟩
    have hstirs := hquiet e he
    rw [Deed.stirs, Bool.or_eq_false_iff, Option.isSome_eq_false_iff, Option.isNone_iff_eq_none] at hstirs
    exact ⟨hstirs.2, hstirs.1⟩

/-- The next message that is sent on a socket at rest goes out in one drain, behind all that waits. -/
theorem drain_of_send (moves more : List Move) (hrests : ((History.run moves).life s).Resting) {m : Move}
    {text : String} : let h := History.run moves
    let k := History.run (moves ++ more)
    let g := k.after m
    (∀ e ∈ (k.trail s).drop (h.trail s).length, e.sent? = none) → (k.world.socket s).state = .opened →
    g.trail s = k.trail s ++ [.send text] →
    ∃ c y id, g.world.callsOf s = h.world.callsOf s ++ [c] ∧ g.world.calls[c]? = some y ∧
      y.batch = some ((h.world.socket s).pending ++ [text]) ∧ (g.world.socket s).session = .assigned id ∧
      y.exchange.IsDrain id (g.world.socket s).protocol ((h.world.socket s).pending ++ [text]) ∧
      (g.world.socket s).pending = [] := by
  intro h k g hquiet hstate hsend
  rcases Life.resting_run moves more hrests hquiet with hclosed | ⟨hrests', hpending, hissued⟩
  · cases hstate.symm.trans hclosed
  · have hturn := turn_after (sound_run (moves ++ more)) (ordered_run _) m s
    obtain ⟨hcalls, hempty⟩ := hrests'.send (sane_run _ s) hturn hsend
    have hkeeps : h.world.Keeps g.world := (keeps_run moves more).trans (k.extends_after m).keeps
    rw [hpending, hissued] at hcalls
    obtain ⟨new, hof, hbatches⟩ := callsOf_of_issued hkeeps hcalls
    obtain ⟨c, rfl, hbatch⟩ := List.map_eq_singleton_iff.1 hbatches
    obtain ⟨y, hy, hbatch⟩ := Option.bind_eq_some_iff.1 hbatch
    obtain ⟨z, hz, rfl⟩ := World.mem_callsOf.1 (hof ▸ List.mem_append_right _ (List.mem_singleton_self c))
    obtain rfl : y = z := Option.some.inj (hy.symm.trans hz)
    obtain ⟨id, hid, hdrain⟩ := (sound_after (sound_run (moves ++ more)) m).isDrain_of_batch hy hbatch
    exact ⟨c, y, id, hof, hy, hbatch, hid, hdrain, hempty⟩

/-- A call that is not the first one of its socket carries a batch. -/
theorem drain_of_later (moves more : List Move) (hcalls : (History.run moves).world.callsOf s ≠ []) :
    let h := History.run moves
    let k := History.run (moves ++ more)
    (h.world.callsOf s).length < (k.world.callsOf s).length →
    ∃ c later y batch, k.world.callsOf s = h.world.callsOf s ++ c :: later ∧ k.world.calls[c]? = some y ∧
      y.batch = some batch := by
  intro h k hlt
  obtain ⟨new, hnew, -⟩ := (keeps_run moves more).callsOf_append s
  obtain ⟨c, later, rfl⟩ : ∃ c later, new = c :: later := by
    rw [← List.ne_nil_iff_exists_cons]
    rintro rfl
    rw [hnew, List.append_nil] at hlt
    exact Nat.lt_irrefl _ hlt
  obtain ⟨greeting, older, holder⟩ := List.ne_nil_iff_exists_cons.1 hcalls
  have hall : k.world.callsOf s = greeting :: (older ++ c :: later) := by
    rw [hnew, holder]
    rfl
  obtain ⟨y, batch, hy, -, hbatch⟩ := (calls_of_sane (sane_run _ s) hall).2 c (by simp)
  exact ⟨c, later, y, batch, hnew, hy, hbatch⟩

/-- An open socket has an exchange outstanding whenever no task is being executed, unless the call that
was completed last is a drain which came to nothing and nothing was sent since. The next message that is
sent then goes out in one drain, behind all that waits. A proper answer that finds the socket open is
followed by another drain, or the socket closes, before the task is over that has taken it. -/
theorem continuous_polling (moves : List Move) (s : Nat) :
    let h := History.run moves
    let x := h.world.socket s
    (h.world.idle = true → x.state = .opened → (∀ c, ¬ h.outstanding s c) →
      (∃ before d after, h.trail s = before ++ d :: after ∧ d.spoils = true ∧
        ∀ e ∈ after, e.completes = false ∧ e.sent? = none) ∧
      ∀ more m text,
        let k := History.run (moves ++ more)
        let g := k.after m
        (∀ e ∈ (k.trail s).drop (h.trail s).length, e.sent? = none) →
        (k.world.socket s).state = .opened → g.trail s = k.trail s ++ [.send text] →
        ∃ c y id, g.world.callsOf s = h.world.callsOf s ++ [c] ∧ g.world.calls[c]? = some y ∧
          y.batch = some (x.pending ++ [text]) ∧ (g.world.socket s).session = .assigned id ∧
          y.exchange.IsDrain id (g.world.socket s).protocol (x.pending ++ [text]) ∧
          (g.world.socket s).pending = []) ∧
    ∀ m d, (h.after m).trail s = h.trail s ++ [d] → d.brings = true →
      ((h.after m).world.socket s).state = .opened →
      ∃ ran inside rest, h.world.agenda = .run ran inside :: rest ∧ ∀ more,
        let k := History.run (moves ++ m :: more)
        (∃ top, top ≠ [] ∧ k.world.agenda = top ++ .run (ran + 1) inside :: rest) ∨
          (k.world.socket s).state = .closed ∨
          ∃ c later y batch, k.world.callsOf s = h.world.callsOf s ++ c :: later ∧
            k.world.calls[c]? = some y ∧ y.batch = some batch := by
  intro h x
  have hsound : Sound h.toBooks h.world := sound_run moves
  constructor
  · intro hidle hopened hnone
    have hagenda : (h.life s).agenda = [] := agenda_of_idle hidle s
    have hrests : (h.life s).Resting := by
      refine ⟨hopened, ?_, by simp [hagenda]⟩
      rw [History.life, World.flight_life_eq_none]
      exact inflight_of_idle hsound hidle hnone
    exact ⟨spoiled_of_resting moves hrests hagenda, fun more m text => drain_of_send moves more hrests⟩
  · intro m d htrail hbrings hopened
    obtain ⟨top, j, ran, inside, rest, hagenda, hcalls, hplanned, hpoised⟩ :=
      poised_after hsound (ordered_run moves) (sane_run moves s) htrail hbrings hopened
    refine ⟨ran, inside, rest, hagenda, fun more => ?_⟩
    intro k
    have hafter : h.after m = History.run (moves ++ [m]) := (History.run_concat moves m).symm
    have hk : k = History.run ((moves ++ [m]) ++ more) := by simp [k]
    rw [hafter] at hplanned hpoised hopened
    have hin : j.duty s :: .run (ran + 1) inside :: rest <:+ (History.run (moves ++ [m])).world.agenda := by
      rw [hplanned]
      exact List.suffix_cons _ _
    rcases poised_run (moves ++ [m]) more hpoised hopened hin with (hclosed | hlt) | ⟨⟨above, habove⟩, -⟩
    · right
      left
      rw [hk]
      exact hclosed
    · -- a call was issued, and it is not the first one
      right
      right
      apply drain_of_later moves (m :: more) hcalls
      obtain ⟨new, hnew, -⟩ := (keeps_run moves [m]).callsOf_append s
      rw [← hk, length_issued, length_issued, hnew, List.length_append] at hlt
      exact Nat.lt_of_le_of_lt (Nat.le_add_right _ _) hlt
    · left
      refine ⟨above ++ [j.duty s], by simp, ?_⟩
      rw [hk, ← habove]
      simp

/-- In `retriedDrain` the answer to the handshake is taken by the ninth move. When the drain has failed
nothing is in flight, and what is sent next goes out with the message of that drain. -/
theorem continuous_polling_retriedDrain :
    let h := History.run (retriedDrain.take 16)
    let k := History.run (retriedDrain.take 16 ++ [.post 0 (.send "b"), .drive])
    let g := k.after .step
    h.world.idle = true ∧ (h.world.socket 0).state = .opened ∧ (∀ c, ¬ h.outstanding 0 c) ∧
      (h.world.socket 0).pending = ["a"] ∧ g.trail 0 = k.trail 0 ++ [.send "b"] ∧
      (∃ c y id, g.world.callsOf 0 = h.world.callsOf 0 ++ [c] ∧ g.world.calls[c]? = some y ∧
        y.batch = some ((h.world.socket 0).pending ++ ["b"]) ∧
        (g.world.socket 0).session = .assigned id ∧
        y.exchange.IsDrain id (g.world.socket 0).protocol ((h.world.socket 0).pending ++ ["b"]) ∧
        (g.world.socket 0).pending = []) ∧
      ∃ ran inside rest,
        (History.run (retriedDrain.take 8)).world.agenda = .run ran inside :: rest ∧ ∀ more,
          let k := History.run (retriedDrain.take 8 ++ .step :: more)
          (∃ top, top ≠ [] ∧ k.world.agenda = top ++ .run (ran + 1) inside :: rest) ∨
            (k.world.socket 0).state = .closed ∨ ∃ c later y batch,
              k.world.callsOf 0 = (History.run (retriedDrain.take 8)).world.callsOf 0 ++ c :: later ∧
              k.world.calls[c]? = some y ∧ y.batch = some batch := by
  intro h k g
  have hidle : h.world.idle = true := by decide +kernel
  have hopened : (h.world.socket 0).state = .opened := by decide +kernel
  have hnone : ∀ c, ¬ h.outstanding 0 c := by
    rintro c ⟨⟨x, hx, hown⟩, hc⟩
    have hmark := (sound_run _).flights.flying hx hc
    rw [hown, show (h.world.socket 0).inflight = none by decide +kernel] at hmark
    cases hmark
  have hpending : (h.world.socket 0).pending = ["a"] := by decide +kernel
  have hquiet : ∀ e ∈ (k.trail 0).drop (h.trail 0).length, e.sent? = none := by decide +kernel
  have hstate : (k.world.socket 0).state = .opened := by decide +kernel
  have hsend : g.trail 0 = k.trail 0 ++ [.send "b"] := by decide +kernel
  exact ⟨hidle, hopened, hnone, hpending, hsend,
    ((continuous_polling _ 0).1 hidle hopened hnone).2 [.post 0 (.send "b"), .drive] .step "b" hquiet
      hstate hsend,
    (continuous_polling (retriedDrain.take 8) 0).2 .step (.handshakeSucceeded "id") (by decide +kernel) rfl
      (by decide +kernel)⟩

end PollSocket.Socket
