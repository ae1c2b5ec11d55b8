import PollSocket.Proofs.DrainResponse
import PollSocket.Proofs.Socket.Polling

set_option autoImplicit false

/-!
# Exact dispatch

The consumer of a socket gets the messages of the proper answers to its drains, in the order in which
the drains were issued, and nothing else; each malformed answer is told to it once, and does nothing else
to the socket (`inbound_dispatch`).

Answers arrive in the order of the drains because a socket has one call in flight (`answers_eq`). That an
error is told once is a count over the life of the socket (`told_malformed_run`).
-/

namespace PollSocket.Socket

variable {event : Event} {rest : List Job} {c s : Nat} {slot : Slot}

/-- Messages that the answer to a drain brings: none if it is malformed. -/
def messagesOf (body : List UInt8) : List String := (decodeDrainResponse body).toOption.getD []

/-- The answer to a drain is malformed for a reason. -/
def refusedFor (reason : Malformed) (body : List UInt8) : Bool :=
  match decodeDrainResponse body with
  | .ok _ => false
  | .error r => r == reason

/-! ## Answers in the order of their drains -/

/-- Body by which a task answers a call. -/
def Task.answerTo? (call : Nat) : Task → Option (List UInt8)
  | .succeed c body => if c = call then some body else none
  | _ => none

/-- Body by which a task answers a drain of socket `s`. -/
def Task.drainBody? (w : World) (s : Nat) : Task → Option (List UInt8)
  | .succeed c body =>
    w.calls[c]?.bind fun x => if x.owner = s ∧ x.batch.isSome then some body else none
  | _ => none

namespace History

/-- Body of the answer to a drain whose success has been reported. -/
def answer? (h : History) (c : Nat) : Option (List UInt8) :=
  if (h.world.calls[c]?.bind (·.batch)).isSome then h.taken.findSome? (Task.answerTo? c) else none

/-- Answers to the drains of socket `s`, in the order in which the drains were issued. -/
def answers (h : History) (s : Nat) : List (List UInt8) := (h.world.callsOf s).filterMap h.answer?

end History

/-- A call that is not completed has no answer. -/
theorem findSome?_answerTo_of_not_completed {taken : List Task} (h : completed taken c = false) :
    taken.findSome? (Task.answerTo? c) = none := by
  rw [List.findSome?_eq_none_iff]
  intro t ht
  cases t with
  | succeed d body =>
    apply if_neg
    rintro rfl
    have hdone : completed taken d = true :=
      completed_iff.2 (List.mem_filterMap.2 ⟨_, ht, rfl⟩)
    cases hdone.symm.trans h
  | _ => rfl

theorem Task.drainBody?_congr {w v : World} (hkeeps : w.Keeps v) {t : Task}
    (hknown : ∀ c, t.once? = some (.complete c) → ∃ x, w.calls[c]? = some x) (s : Nat) :
    t.drainBody? v s = t.drainBody? w s := by
  cases t with
  | succeed c body =>
    obtain ⟨x, hx⟩ := hknown c rfl
    obtain ⟨y, hy, howner, -, hbatch⟩ := hkeeps c x hx
    simp only [Task.drainBody?, hx, hy, Option.bind_some, howner, hbatch]
  | _ => rfl

/-- A task that answers no drain of a socket answers none of the calls of the socket. -/
theorem Task.answerTo?_of_drainBody? {w : World} {t : Task} (h : t.drainBody? w s = none) {x : Call}
    (hx : w.calls[c]? = some x) (hown : x.owner = s) (hbatch : x.batch.isSome = true) :
    t.answerTo? c = none := by
  cases t with
  | succeed d body =>
    apply if_neg
    rintro rfl
    rw [Task.drainBody?, hx, Option.bind_some, if_pos ⟨hown, hbatch⟩] at h
    cases h
  | _ => rfl

namespace History

variable {h : History}

/-- A call that is issued now has no answer yet, so the answers are those of the old calls. -/
theorem answers_after (hs : Sound h.toBooks h.world) (m : Move) (s : Nat) :
    (h.after m).answers s = (h.world.callsOf s).filterMap (h.after m).answer? := by
  obtain ⟨more, hmore, hnew⟩ := (h.extends_after m).keeps.callsOf_append s
  have hnone : more.filterMap (h.after m).answer? = [] := by
    rw [List.filterMap_eq_nil_iff]
    intro c hc
    have hmem : c ∈ (h.after m).world.callsOf s := by
      rw [hmore]
      exact List.mem_append_right _ hc
    obtain ⟨x, hx, -⟩ := World.mem_callsOf.1 hmem
    have hopen := not_completed_after hs m (hnew c hc) (List.getElem?_eq_some_iff.1 hx).1
    rw [answer?, findSome?_answerTo_of_not_completed hopen, ite_self]
  rw [answers, hmore, List.filterMap_append, hnone, List.append_nil]

/-- What a move adds to the answer to an old call is what its task answers. -/
theorem answer?_after {m : Move} {o : Option Task} (htaken : (h.after m).taken = h.taken ++ o.toList)
    {x : Call} (hx : h.world.calls[c]? = some x) :
    (h.after m).answer? c =
      if x.batch.isSome then (h.taken.findSome? (Task.answerTo? c)).or (o.bind (Task.answerTo? c))
      else none := by
  obtain ⟨y, hy, -, -, hbatch⟩ := (h.extends_after m).keeps c x hx
  have hlast : o.toList.findSome? (Task.answerTo? c) = o.bind (Task.answerTo? c) := by
    cases o with
    | none => rfl
    | some t => cases ht : t.answerTo? c <;> simp [ht]
  rw [answer?, hy, Option.bind_some, hbatch, htaken, List.findSome?_append, hlast]

/-- Answers are taken in the order in which their drains were issued. -/
theorem answers_eq (moves : List Move) (s : Nat) :
    (run moves).answers s = (run moves).taken.filterMap (Task.drainBody? (run moves).world s) := by
  induction moves using List.reverseRecOn with
  | nil => rfl
  | append_singleton front m ih =>
    rw [run_concat]
    set h := run front
    have hs : Sound h.toBooks h.world := sound_run front
    obtain ⟨o, htaken, hnext⟩ := h.taken_after m
    -- what the tasks so far answer does not depend on calls that are issued now
    have hknown : ∀ t ∈ (h.after m).taken, t.drainBody? (h.after m).world s = t.drainBody? h.world s := by
      intro t ht
      refine Task.drainBody?_congr (h.extends_after m).keeps (fun c hc => ?_) s
      rw [htaken, List.mem_append] at ht
      rcases ht with ht | ht
      · obtain ⟨x, hx, -⟩ := hs.flights.answered c
          (List.mem_filterMap.2 ⟨t, List.mem_append_left _ ht, hc⟩)
        exact ⟨x, hx⟩
      · obtain ⟨l, hn⟩ := hnext t (Option.mem_toList.1 ht)
        obtain ⟨x, hx, -⟩ := hs.completion hn hc
        exact ⟨x, hx⟩
    rw [List.filterMap_congr hknown, htaken, List.filterMap_append, ← ih, answers_after hs]
    -- a call whose answer is not taken now keeps the answer that it has
    have hkept : ∀ c ∈ h.world.callsOf s, (∀ t ∈ o, t.answerTo? c = none) →
        (h.after m).answer? c = h.answer? c := by
      intro c hc hother
      obtain ⟨x, hx, -⟩ := World.mem_callsOf.1 hc
      have hnone : o.bind (Task.answerTo? c) = none := by
        cases o with
        | none => rfl
        | some t => exact hother t rfl
      rw [answer?_after htaken hx, hnone, Option.or_none, answer?, hx, Option.bind_some]
    cases hbody : o.bind (Task.drainBody? h.world s) with
    | none =>
      have hlist : o.toList.filterMap (Task.drainBody? h.world s) = [] := by
        cases o with
        | none => rfl
        | some t => simpa using hbody
      rw [hlist, List.append_nil]
      refine List.filterMap_congr fun c hc => ?_
      obtain ⟨x, hx, hown⟩ := World.mem_callsOf.1 hc
      by_cases hbatch : x.batch.isSome = true
      · apply hkept c hc
        rintro t ht
        rw [Option.mem_def.1 ht] at hbody
        exact Task.answerTo?_of_drainBody? hbody hx hown hbatch
      · rw [answer?_after htaken hx, if_neg hbatch, answer?, hx, Option.bind_some, if_neg hbatch]
    | some body =>
      obtain ⟨t, rfl, hdrain⟩ := Option.bind_eq_some_iff.1 hbody
      cases t with
      | succeed c body' =>
        obtain ⟨x, hx, hcond⟩ := Option.bind_eq_some_iff.1 hdrain
        obtain ⟨⟨rfl, hbatch⟩, heq⟩ := Option.ite_none_right_eq_some.1 hcond
        cases heq
        obtain ⟨l, hn⟩ := hnext _ rfl
        have hopen : completed h.taken c = false := by
          refine hs.flights.not_completed_of_queue (t := .succeed c body) ?_ rfl
          rw [queue_of_next? hn]
          exact List.mem_cons_self
        -- the drain that is answered is the newest call, as it is the one in flight
        obtain ⟨older, hof, holder⟩ := hs.flights.callsOf_of_flying hx hopen
        have hold : older.filterMap (h.after m).answer? = older.filterMap h.answer? := by
          refine List.filterMap_congr fun d hd => ?_
          apply hkept d (by rw [hof]; exact List.mem_append_left _ hd)
          rintro t ⟨⟩
          exact if_neg (holder d hd).1.ne'
        have hunanswered : h.answer? c = none := by
          rw [answer?, findSome?_answerTo_of_not_completed hopen, ite_self]
        have hanswered : (h.after m).answer? c = some body := by
          rw [answer?_after htaken hx, if_pos hbatch, findSome?_answerTo_of_not_completed hopen]
          exact if_pos rfl
        rw [answers, hof, List.filterMap_append, hold]
        simp [hunanswered, hanswered, hdrain]
      | _ => cases hdrain

end History

/-- Messages that a task brings are those of the answer to a drain. -/
theorem Task.messages_eq (w : World) (s : Nat) (t : Task) :
    t.messages w s = ((t.drainBody? w s).map messagesOf).getD [] := by
  cases t with
  | succeed c body =>
    cases hx : w.calls[c]? with
    | none => simp [Task.messages, Task.drainBody?, hx]
    | some x =>
      cases hbatch : x.batch with
      | none => simp [Task.messages_of_handshake hx hbatch, Task.drainBody?, hx, hbatch]
      | some batch =>
        rw [Task.messages_of_drain hx hbatch]
        by_cases hown : x.owner = s
        · have hbody : (Task.succeed c body).drainBody? w s = some body := by
            simp [Task.drainBody?, hx, hown, hbatch]
          rw [hbody, if_pos hown, Option.map_some, messagesOf]
          cases decodeDrainResponse body <;> rfl
        · simp [Task.drainBody?, hx, hown]
  | _ => rfl

/-- The messages of the answers are those that the consumer has had an occasion for, followed by those
that are on the agenda. -/
theorem messagesFor_append_agenda (moves : List Move) (s : Nat) :
    messagesFor s (History.run moves).emitted ++
        (History.run moves).world.agenda.flatMap (Duty.messages s) =
      ((History.run moves).answers s).flatMap messagesOf := by
  set h := History.run moves
  calc messagesFor s h.emitted ++ h.world.agenda.flatMap (Duty.messages s)
    _ = h.taken.flatMap (Task.messages h.world s) := ((sound_run moves).inbound s).symm
    _ = (h.taken.filterMap (Task.drainBody? h.world s)).flatMap messagesOf := by
      rw [List.filterMap_eq_flatMap_toList, List.flatMap_assoc]
      refine List.flatMap_congr fun t _ => ?_
      rw [Task.messages_eq]
      cases t.drainBody? h.world s <;> simp
    _ = (h.answers s).flatMap messagesOf := by rw [History.answers_eq]

/-- Between tasks the consumer has had an occasion for every message that has arrived, and for no
other. -/
theorem messagesFor_of_idle (moves : List Move) (s : Nat) (hidle : (History.run moves).world.idle = true) :
    messagesFor s (History.run moves).emitted = ((History.run moves).answers s).flatMap messagesOf := by
  have hagenda : (History.run moves).world.agenda.flatMap (Duty.messages s) = [] := by
    unfold World.idle at hidle
    split at hidle
    next hnil => simp [hnil]
    next hrun => simp [hrun, Duty.messages]
    next => cases hidle
  rw [← messagesFor_append_agenda, hagenda, List.append_nil]

/-! ## Errors are told once -/

/-- The deed is a malformed answer to a drain. -/
def Deed.malformedFor (reason : Malformed) : Deed → Bool
  | .drainMalformed _ r => r == reason
  | _ => false

namespace Life

variable {l k : Life} {reason : Malformed}

theorem told_drain (l : Life) (event : Event) : l.drain.told event = l.told event := by
  unfold drain
  split <;> rfl

theorem told_close (l : Life) (hevent : event ≠ .closed) : l.close.told event = l.told event := by
  unfold close told
  split <;> simp [hevent.symm]

theorem told_closeIfDrained (l : Life) (hevent : event ≠ .closed) :
    l.closeIfDrained.told event = l.told event := by
  unfold closeIfDrained
  split
  · exact l.told_close hevent
  · rfl

theorem told_push (l : Life) (jobs : List Job) (event : Event) :
    (l.push jobs).told event = l.told event + jobs.count (.emit event) := by
  simp only [told, push, List.count_append]
  omega

theorem told_pop {j : Job} (h : l.agenda = j :: rest) (hj : j ≠ .emit event) :
    ({ l with agenda := rest } : Life).told event = l.told event := by
  simp [told, h, hj]

/-- An error of a malformed answer is told for each such answer, once. -/
def Tells (l : Life) (reason : Malformed) : Prop :=
  l.told (.error (.malformed .drain reason)) = l.trail.countP (Deed.malformedFor reason)

variable (h : l.Tells reason)
include h

theorem Tells.did {d : Deed} (hd : d.malformedFor reason = false) :
    ({ l with trail := l.trail ++ [d] } : Life).Tells reason := by
  show l.told _ = (l.trail ++ [d]).countP _
  rw [List.countP_append, List.countP_singleton, hd]
  exact h

theorem Tells.keep
    (htold : k.told (.error (.malformed .drain reason)) = l.told (.error (.malformed .drain reason)))
    (htrail : k.trail = l.trail) : k.Tells reason := by
  rw [Tells, htold, htrail]
  exact h

theorem Tells.execute (d : Deed) : (({ l with trail := l.trail ++ [d] } : Life).execute d).Tells reason := by
  have hclosed : Event.error (.malformed .drain reason) ≠ .closed := by simp
  have hdid := fun hd => h.did (d := d) hd
  cases d with
  | establish => exact (hdid rfl).keep rfl rfl
  | send text =>
    simp only [Life.execute]
    split
    · exact (hdid rfl).keep rfl rfl
    · exact (hdid rfl).keep (told_drain _ _) (trail_drain _)
  | close => exact (hdid rfl).keep (told_close _ hclosed) rfl
  | closeWhenDrained => exact (hdid rfl).keep (told_closeIfDrained _ hclosed) (trail_closeIfDrained _)
  | handle => exact hdid rfl
  | handshakeSucceeded id =>
    simp only [Life.execute]
    split
    · refine (hdid rfl).keep ?_ rfl
      rfl
    · exact (hdid rfl).keep rfl rfl
  | handshakeMalformed r | handshakeFailed | drainSucceeded batch messages =>
    refine (hdid rfl).keep ?_ rfl
    rfl
  | drainMalformed batch r =>
    -- the error that is planned is the one of this answer
    show (Life.push _ _).told _ = (l.trail ++ [Deed.drainMalformed batch r]).countP _
    rw [told_push, List.countP_append,
      show (({ l with trail := l.trail ++ [.drainMalformed batch r] } : Life).land).told
        (.error (.malformed .drain reason)) = l.told (.error (.malformed .drain reason)) from rfl, h]
    by_cases hr : r = reason <;> simp [Deed.malformedFor, hr]
  | drainFailed batch =>
    simp only [Life.execute]
    split
    · exact (hdid rfl).keep (told_close _ hclosed) rfl
    · exact (hdid rfl).keep rfl rfl

theorem Tells.discharge {j : Job} (hj : l.agenda = j :: rest) :
    (({ l with agenda := rest } : Life).discharge j).Tells reason := by
  have hclosed : Event.error (.malformed .drain reason) ≠ .closed := by simp
  refine h.keep ?_ (trail_discharge _ j)
  cases j with
  | emit event =>
    simp only [told, Life.discharge, hj, List.count_append, List.count_cons, List.count_nil,
      beq_iff_eq, Job.emit.injEq]
    omega
  | dispatch messages =>
    cases messages with
    | nil => exact told_pop hj (by simp)
    | cons m more =>
      exact told_pop hj (by simp)
  | resume | begin =>
    simp only [Life.discharge, told_closeIfDrained _ hclosed, told_drain]
    exact told_pop hj (by simp)
  | closeIfClosing =>
    simp only [Life.discharge]
    split
    · rw [told_close _ hclosed]
      exact told_pop hj (by simp)
    · exact told_pop hj (by simp)

theorem Tells.turn (t : l.Turn k) : k.Tells reason := by
  cases t with
  | rest => exact h
  | created => exact h.keep rfl rfl
  | deed d => exact h.execute d
  | job j rest hj => exact h.discharge hj
  | caught name value =>
    -- what a handler throws is another error
    refine h.keep ?_ rfl
    rfl

end Life

theorem told_malformed_run (moves : List Move) (s : Nat) (reason : Malformed) :
    ((History.run moves).life s).Tells reason :=
  Life.holds_run (P := fun l => l.Tells reason) rfl (fun h t => h.turn t) moves s

/-- What was done to a socket shows which answers were malformed. -/
theorem countP_trail (h : History) (s : Nat) (reason : Malformed) :
    (h.trail s).countP (Deed.malformedFor reason) =
      (h.taken.filterMap (Task.drainBody? h.world s)).countP (refusedFor reason) := by
  rw [History.trail, List.countP_filterMap, List.countP_filterMap]
  refine List.countP_congr fun t _ => ?_
  cases t with
  | succeed c body =>
    simp only [Task.deed?, Task.drainBody?]
    cases h.world.calls[c]? with
    | none => simp
    | some x =>
      by_cases hown : x.owner = s
      · simp only [Option.bind_some, Call.success, hown]
        cases x.batch with
        | none => cases decodeHandshakeResponse body <;> simp [Deed.malformedFor]
        | some batch =>
          cases hdecode : decodeDrainResponse body <;> simp [Deed.malformedFor, refusedFor, hdecode]
      · simp [hown]
  | fail c =>
    simp only [Task.deed?, Task.drainBody?]
    cases h.world.calls[c]? with
    | none => simp
    | some x =>
      by_cases hown : x.owner = s
      · simp only [Option.bind_some, if_pos hown, Call.failure]
        cases x.batch <;> simp [Deed.malformedFor]
      · simp [hown]
  | establish r | send r | close r | closeWhenDrained r | handle r =>
    by_cases hr : r = s <;> simp [Task.deed?, Task.drainBody?, hr, Deed.malformedFor]

/-- Between tasks every malformed answer has been told once. -/
theorem errors_of_idle (moves : List Move) (s : Nat) (hidle : (History.run moves).world.idle = true)
    (reason : Malformed) :
    (History.run moves).emitted.count (s, .error (.malformed .drain reason)) =
      ((History.run moves).answers s).countP (refusedFor reason) := by
  set h := History.run moves
  have htold := told_malformed_run moves s reason
  rw [Life.Tells, Life.told, agenda_of_idle hidle] at htold
  rw [History.answers_eq, ← countP_trail, ← h.count_occasions]
  exact htold

/-! ## Malformed answers -/

namespace Life

variable {l k : Life}

/-- The queue, the session and the calls are what they were; nothing is in flight, and no drain that was
planned has been done. -/
structure Unmoved (l k : Life) : Prop where
  flight : k.flight = none
  pending : k.pending = l.pending
  session : k.session = l.session
  issued : k.issued = l.issued
  begins : k.agenda.count .begin = l.agenda.count .begin

theorem Unmoved.refl (h : l.flight = none) : l.Unmoved l := ⟨h, rfl, rfl, rfl, rfl⟩

theorem Unmoved.trans {j : Life} (h : j.Unmoved l) (i : l.Unmoved k) : j.Unmoved k :=
  ⟨i.flight, i.pending.trans h.pending, i.session.trans h.session, i.issued.trans h.issued,
    i.begins.trans h.begins⟩

theorem Unmoved.close (h : l.Unmoved k) : l.Unmoved k.close := by
  refine ⟨h.flight, h.pending, h.session, h.issued, ?_⟩
  rw [← h.begins]
  by_cases hclosed : k.state = .closed <;> simp [Life.close, hclosed]

/-- Without a call in flight, what is not a task for the socket and no planned drain does not move it. -/
theorem Turn.unmoved (t : l.Turn k) (hl : l.Sane) (hfree : l.flight = none)
    (htrail : k.trail = l.trail) (hbegins : l.agenda.count .begin ≤ k.agenda.count .begin) :
    l.Unmoved k := by
  cases t with
  | rest => exact Unmoved.refl hfree
  | created => exact ⟨hfree, rfl, rfl, rfl, rfl⟩
  | deed d =>
    rw [trail_execute] at htrail
    simp at htrail
  | caught => exact ⟨hfree, rfl, rfl, rfl, by simp [push]⟩
  | job j rest hj =>
    cases j with
    | emit event => exact ⟨hfree, rfl, rfl, rfl, by simp [discharge, hj]⟩
    | dispatch messages =>
      cases messages with
      | nil => exact ⟨hfree, rfl, rfl, rfl, by simp [discharge, hj]⟩
      | cons m more => exact ⟨hfree, rfl, rfl, rfl, by simp [discharge, push, hj]⟩
    | resume =>
      obtain ⟨batch, hbatch⟩ := hl.delivering (by simp [hj])
      cases hfree.symm.trans hbatch
    | begin =>
      -- a planned drain that is done is not planned any more
      have hcount : ((({ l with agenda := rest } : Life).drain).closeIfDrained).agenda.count .begin =
          rest.count .begin := by
        unfold closeIfDrained
        split
        · rw [Life.close, agenda_drain]
          split <;> simp
        · rw [agenda_drain]
      rw [discharge, hcount, hj, List.count_cons_self] at hbegins
      exact absurd hbegins (Nat.not_succ_le_self _)
    | closeIfClosing =>
      have hpopped : l.Unmoved { l with agenda := rest } := ⟨hfree, rfl, rfl, rfl, by simp [hj]⟩
      rw [discharge]
      split
      · exact hpopped.close
      · exact hpopped

end Life

theorem trail_run (moves more : List Move) (s : Nat) :
    (History.run moves).trail s <+: (History.run (moves ++ more)).trail s :=
  Life.kept_run (P := fun k => (History.run moves).trail s <+: k.trail) (fun h t => h.trans t.trail)
    moves more List.prefix_rfl

/-- A socket that nothing is in flight for is not moved until a task for it is taken or the drains are
done that `below` holds. -/
theorem unmoved_run (moves more : List Move) (below : List Duty)
    (hfree : ((History.run moves).life s).flight = none)
    (hbegins : ((History.run moves).life s).agenda.count .begin =
      (below.filterMap (Duty.job? s)).count .begin)
    (hquiet : (History.run (moves ++ more)).trail s = (History.run moves).trail s)
    (hstack : ∀ front, front <+: more → below <:+ (History.run (moves ++ front)).world.agenda) :
    ((History.run moves).life s).Unmoved ((History.run (moves ++ more)).life s) := by
  induction more using List.reverseRecOn with
  | nil =>
    rw [List.append_nil]
    exact Life.Unmoved.refl hfree
  | append_singleton front m ih =>
    rw [← List.append_assoc] at hquiet ⊢
    have hstop : (History.run (moves ++ front)).trail s = (History.run moves).trail s := by
      apply List.IsPrefix.eq_of_length_le _ _ |>.symm
      · exact trail_run moves front s
      · rw [← hquiet]
        exact (trail_run (moves ++ front) [m] s).length_le
    have hfront := ih hstop fun early hearly => hstack early (hearly.trans (List.prefix_append _ _))
    refine hfront.trans ?_
    have hturn := turn_after (sound_run (moves ++ front)) (ordered_run _) m s
    have hbelow := hstack (front ++ [m]) List.prefix_rfl
    rw [← List.append_assoc] at hbelow
    rw [History.run_concat] at hquiet hbelow ⊢
    apply hturn.unmoved (sane_run _ s) hfront.flight (hquiet.trans hstop.symm)
    rw [hfront.begins, hbegins]
    exact (hbelow.sublist.filterMap _).count_le _

/-- A malformed answer is told next, and plans nothing but to look at closing once more. -/
theorem malformed_after {h : History} (hs : Sound h.toBooks h.world) {m : Move} {batch : List String}
    {reason : Malformed} (htrail : (h.after m).trail s = h.trail s ++ [.drainMalformed batch reason]) :
    ∃ ran inside rest, h.world.agenda = .run ran inside :: rest ∧
      (h.after m).world.agenda = .emit s (.error (.malformed .drain reason)) :: .closeIfClosing s ::
        .run (ran + 1) inside :: rest := by
  obtain ⟨t, l, ran, inside, rest, hagenda, -, hdeed, hworld⟩ := hs.taking_of_trail htrail
  refine ⟨ran, inside, rest, hagenda, ?_⟩
  rw [hworld]
  cases t with
  | succeed c body =>
    obtain ⟨x, hx, hown⟩ := Option.bind_eq_some_iff.1 hdeed
    obtain ⟨rfl, hsuccess⟩ := Option.ite_none_right_eq_some.1 hown
    rw [Option.some_inj, Call.success] at hsuccess
    cases hbatch : x.batch with
    | none =>
      rw [hbatch] at hsuccess
      cases hdecode : decodeHandshakeResponse body <;> simp [hdecode] at hsuccess
    | some carried =>
      rw [hbatch] at hsuccess
      cases hdecode : decodeDrainResponse body with
      | ok messages => simp [hdecode] at hsuccess
      | error r =>
        simp only [hdecode, Deed.drainMalformed.injEq] at hsuccess
        obtain ⟨-, rfl⟩ := hsuccess
        have hcalls : (({ h.world with agenda := rest, loop := l } : World).push
            [.run (ran + 1) inside]).calls[c]? = some x := hx
        simp only [World.execute, hcalls, hbatch, World.drainSucceeded, hdecode]
        exact congrArg ([Duty.emit x.owner (.error (.malformed .drain r)), .closeIfClosing x.owner] ++ ·)
          (World.agenda_release _ x.owner)
  | fail c =>
    obtain ⟨x, -, hown⟩ := Option.bind_eq_some_iff.1 hdeed
    obtain ⟨-, hfailure⟩ := Option.ite_none_right_eq_some.1 hown
    rw [Call.failure] at hfailure
    split at hfailure <;> cases hfailure
  | _ =>
    obtain ⟨-, ⟨⟩⟩ := Option.ite_none_right_eq_some.1 hdeed

/-- Exactly the proper answers are accepted. Between tasks the consumer of a socket has had an occasion
for each of their messages, in the order in which the drains were issued and for nothing else, and one
for each malformed answer; with handlers that are there it was called on each. A malformed answer is told
next, and until its task is over it leaves the session, the queue and the calls as they are, unless
another task for the socket is taken meanwhile. -/
theorem inbound_dispatch (moves : List Move) (s : Nat) :
    let h := History.run moves
    (∀ body messages, decodeDrainResponse body = .ok messages ↔ ProperAnswer body messages) ∧
    (h.world.idle = true →
      messagesFor s h.emitted = (h.answers s).flatMap messagesOf ∧
      (Attended moves s .onMessage →
        messagesFor s h.world.callbacks = (h.answers s).flatMap messagesOf) ∧
      ∀ reason,
        let error := Event.error (.malformed .drain reason)
        h.emitted.count (s, error) = (h.answers s).countP (refusedFor reason) ∧
        (Attended moves s .onError →
          h.world.callbacks.count (s, error) = (h.answers s).countP (refusedFor reason))) ∧
    ∀ m batch reason, (h.after m).trail s = h.trail s ++ [.drainMalformed batch reason] →
      (h.after m).world.emitting? = some (s, .error (.malformed .drain reason)) ∧
      ∃ ran inside rest, h.world.agenda = .run ran inside :: rest ∧ ∀ more,
        let k := History.run (moves ++ m :: more)
        k.trail s = (h.after m).trail s →
        (∀ front, front <+: more →
          .run (ran + 1) inside :: rest <:+ (History.run (moves ++ m :: front)).world.agenda) →
        (k.world.socket s).session = (h.world.socket s).session ∧
          (k.world.socket s).pending = (h.world.socket s).pending ∧
          k.world.callsOf s = h.world.callsOf s := by
  intro h
  refine ⟨fun _ _ => decodeDrainResponse_ok_iff, fun hidle => ⟨messagesFor_of_idle moves s hidle, fun hattended => ?_,
    fun reason => ⟨errors_of_idle moves s hidle reason, fun hattended => ?_⟩⟩, ?_⟩
  · exact (messagesFor_callbacks moves hattended).trans (messagesFor_of_idle moves s hidle)
  · exact (count_callbacks moves hattended).trans (errors_of_idle moves s hidle reason)
  · intro m batch reason htrail
    have hsound : Sound h.toBooks h.world := sound_run moves
    obtain ⟨ran, inside, rest, hagenda, hplanned⟩ := malformed_after hsound htrail
    refine ⟨by rw [World.emitting?, hplanned], ran, inside, rest, hagenda, fun more => ?_⟩
    intro k hquiet hstack
    -- what the answer itself does to the socket
    have hafter : h.after m = History.run (moves ++ [m]) := (History.run_concat moves m).symm
    have hlife := ((turn_after hsound (ordered_run moves) m s).of_trail htrail).2
    have hk : k = History.run ((moves ++ [m]) ++ more) := by simp [k]
    have hunmoved : ((h.after m).life s).Unmoved (k.life s) := by
      rw [hk, hafter]
      apply unmoved_run (moves ++ [m]) more (.run (ran + 1) inside :: rest)
      · rw [← hafter, hlife]
        rfl
      · rw [← hafter, History.life, World.life, life, hplanned]
        simp [Duty.job?]
      · rw [← hk, ← hafter]
        exact hquiet
      · intro front hfront
        rw [List.append_assoc, List.singleton_append]
        exact hstack front hfront
    rw [hlife] at hunmoved
    refine ⟨hunmoved.session, hunmoved.pending, ?_⟩
    exact callsOf_eq (keeps_run moves (m :: more)) hunmoved.issued

/-- A run in which the first drain brings two messages and the second one an empty answer, with handlers
for both. -/
def spoiledAnswer : List Move :=
  [.create { address := "ws://host" }, .post 0 (.handle .onMessage (some [])),
    .post 0 (.handle .onError (some [])), .drive, .step, .step, .step, .step,
    .succeed 0 (handshakeResponseBody "id"), .drive, .step, .step, .step, .step,
    .succeed 1 (drainResponseBody ["m", "n"]), .drive, .step, .step, .step, .step, .step, .step, .step,
    .step, .step, .step, .succeed 2 [], .drive, .step, .step, .step, .step, .step]

/-- The second answer is taken by move 29, and its task is over with move 32. -/
theorem inbound_dispatch_spoiledAnswer :
    let h := History.run spoiledAnswer
    let g := History.run (spoiledAnswer.take 28)
    let k := History.run (spoiledAnswer.take 32)
    let error := Event.error (.malformed .drain .undecodable)
    h.world.idle = true ∧ Attended spoiledAnswer 0 .onMessage ∧ Attended spoiledAnswer 0 .onError ∧
      h.answers 0 = [drainResponseBody ["m", "n"], []] ∧
      messagesFor 0 h.world.callbacks = (h.answers 0).flatMap messagesOf ∧
      h.world.callbacks.count (0, error) = (h.answers 0).countP (refusedFor .undecodable) ∧
      (g.after .step).trail 0 = g.trail 0 ++ [.drainMalformed [] .undecodable] ∧
      (g.after .step).world.emitting? = some (0, error) ∧ k.trail 0 = (g.after .step).trail 0 ∧
      (k.world.socket 0).session = (g.world.socket 0).session ∧
      (k.world.socket 0).pending = (g.world.socket 0).pending ∧
      k.world.callsOf 0 = g.world.callsOf 0 := by
  intro h g k error
  have hidle : h.world.idle = true := by decide +kernel
  have hmessages : Attended spoiledAnswer 0 .onMessage := attended_of_take (by decide +kernel)
  have herrors : Attended spoiledAnswer 0 .onError := attended_of_take (by decide +kernel)
  have htrail : (g.after .step).trail 0 = g.trail 0 ++ [.drainMalformed [] .undecodable] := by
    decide +kernel
  have hquiet : k.trail 0 = (g.after .step).trail 0 := by decide +kernel
  have hrun : g.world.agenda = [.run 0 none] := rfl
  have hall := (inbound_dispatch spoiledAnswer 0).2.1 hidle
  obtain ⟨hnext, ran, inside, rest, hagenda, hleft⟩ :=
    (inbound_dispatch (spoiledAnswer.take 28) 0).2.2 .step [] .undecodable htrail
  obtain ⟨⟨rfl, rfl⟩, rfl⟩ : (0 = ran ∧ none = inside) ∧ [] = rest := by
    simpa using hrun.symm.trans hagenda
  refine ⟨hidle, hmessages, herrors, by decide +kernel, hall.2.1 hmessages,
    (hall.2.2 .undecodable).2 herrors, htrail, hnext, hquiet,
    hleft [.step, .step, .step] hquiet fun front hfront => ?_⟩
  -- the run that has taken the answer stays at the bottom of the agenda
  rw [← List.mem_inits] at hfront
  simp only [List.inits, List.map_cons, List.map_nil, List.mem_cons, List.not_mem_nil, or_false] at hfront
  rcases hfront with rfl | rfl | rfl | rfl
  · exact ⟨[.emit 0 error, .closeIfClosing 0], rfl⟩
  · exact ⟨[.leave 0 error, .closeIfClosing 0], rfl⟩
  · exact ⟨[.closeIfClosing 0], rfl⟩
  · exact ⟨[], rfl⟩

/-- A body that gives `null` for its only message. -/
def nullItemBody : List UInt8 :=
  Text.encode (Json.Value.write .message (.object [("messages", .array [.null])]))

/-- A message that is `null` is no text, yet it is dispatched as the empty text, no error is told, and
the socket drains again. -/
theorem nullItem_dispatched :
    let h := History.run [.create { address := "ws://host", handlers :=
        { onMessage := some [], onError := some [] } }, .drive, .step, .step,
      .succeed 0 (handshakeResponseBody "id"), .drive, .step, .step, .step, .step,
      .succeed 1 nullItemBody, .drive, .step, .step, .step, .step, .step, .step, .step]
    Json.whole? (Text.decode nullItemBody) = some (.object [("messages", .array [.null])]) ∧
      h.world.idle = true ∧ h.answers 0 = [nullItemBody] ∧ messagesFor 0 h.world.callbacks = [""] ∧
      (∀ reason, h.world.callbacks.count (0, .error (.malformed .drain reason)) = 0) ∧
      h.world.callsOf 0 = [0, 1, 2] := by
  refine ⟨by rfl, by decide +kernel, by decide +kernel, by decide +kernel, fun reason => ?_,
    by decide +kernel⟩
  cases reason <;> decide +kernel

end PollSocket.Socket
