import PollSocket.Proofs.Socket.Inbound
import PollSocket.Proofs.Socket.Ledger
import PollSocket.Proofs.Socket.Wiring

set_option autoImplicit false

/-!
# The invariant of all histories

`Sound` puts the invariants together: calls in flight, the places of messages in both directions, the
exchanges and the shape of the agenda. Every part of a step keeps it, so every move does
(`sound_after`), and it holds of every history (`sound_run`).
-/

namespace PollSocket.Socket

variable {x : Call} {agenda rest : List Duty} {body : List UInt8} {l : Loop Task} {c s : Nat} {t : Task}

/-- What holds of books and world before every step. -/
structure Sound (b : Books) (w : World) : Prop where
  flights : Flights (fun s => Duty.resume s ∈ w.agenda) b.taken w
  ledger : Ledger b w
  wired : Wired b.taken w
  inbound : Inbound b.taken b.emitted w
  shape : AgendaShape w.sockets.length w.agenda
  /-- Messages are delivered of calls that have succeeded. -/
  delivered : ∀ s c, Duty.resume s ∈ w.agenda → (w.socket s).inflight = some c →
    succeeded b.taken c = true

/-- Books and world of a step that began with `k` calls: the call it may have issued is entered. -/
def Settled (k : Nat) (b : Books) (w : World) : Prop := Sound (b.issue k w.calls[k]?) w

variable {b : Books} {w v : World}

namespace Sound

theorem quiet (h : Sound b w) (q : Quiet w v) : Sound b v where
  flights := (h.flights.quiet q).mono_R fun s => (q.resume_mem s).symm
  ledger := h.ledger.quiet q
  wired := h.wired.quiet q
  inbound := h.inbound.quiet h.flights q
  shape := q.shape h.shape
  delivered s c hs hc :=
    h.delivered s c ((q.resume_mem s).1 hs) ((q.inflight s).symm.trans hc)

/-- Another agenda with the same deliveries. -/
theorem replan (h : Sound b w) (hshape : AgendaShape w.sockets.length agenda)
    (hresume : ∀ s, Duty.resume s ∈ agenda ↔ Duty.resume s ∈ w.agenda)
    (hmessages : ∀ s, agenda.flatMap (Duty.messages s) = w.agenda.flatMap (Duty.messages s)) :
    Sound b { w with agenda } where
  flights := { h.flights.mono_R fun s => (hresume s).symm with }
  ledger := { h.ledger with }
  wired := { h.wired with }
  inbound := h.inbound.congr h.flights (.of_eq rfl) hmessages
  shape := hshape
  delivered s c hs hc := h.delivered s c ((hresume s).1 hs) hc

/-- Duties are dropped that are not part of a delivery. -/
theorem drop (h : Sound b w) {duties : List Duty} (ha : w.agenda = duties ++ rest)
    (hd : ∀ d ∈ duties, d.resumes? = none ∧ ∀ s, d.messages s = []) : Sound b { w with agenda := rest } := by
  have hshape := h.shape
  rw [ha] at hshape
  refine h.replan (hshape.drop duties) (fun s => ?_) fun s => ?_
  · rw [ha, List.mem_append, or_iff_right]
    intro hs
    cases (hd _ hs).1
  · have hnone : duties.flatMap (Duty.messages s) = [] :=
      List.flatMap_eq_nil_iff.2 fun d hmem => (hd d hmem).2 s
    rw [ha, List.flatMap_append, hnone, List.nil_append]

/-- Nothing was issued. -/
theorem settled (h : Sound b w) {k : Nat} (hk : w.calls.length = k) : Settled k b w := by
  subst hk
  rw [Settled, List.getElem?_eq_none le_rfl]
  exact { h with ledger := h.ledger.issue_none }

end Sound

theorem Settled.quiet {k : Nat} (h : Settled k b w) (q : Quiet w v) : Settled k b v := by
  rw [Settled, q.calls]
  exact Sound.quiet h q

namespace Sound

/-! ## Issuing calls -/

variable (h : Sound b w)
include h

/-- A socket without a mark issues a call; `u` is the world in which a drain has emptied the queue. -/
theorem issue {u : World} (hs : s < w.sockets.length) (hfree : (w.socket s).inflight = none)
    (hnot : Task.establish s ∉ w.loop.queue) (hcalls : u.calls = w.calls) (hloop : u.loop = w.loop)
    (hagenda : u.agenda = w.agenda) (hsize : u.sockets.length = w.sockets.length)
    (hinflight : ∀ r, (u.socket r).inflight = (w.socket r).inflight)
    (hstate : ∀ r, (u.socket r).state = (w.socket r).state)
    (hrequeue : ∀ r, (u.socket r).requeue = (w.socket r).requeue) (body : Option (List UInt8))
    {batch : Option (List String)} (hbatch : ∀ m, batch = some m → m = (w.socket s).pending)
    (hpending : ∀ r, (u.socket r).pending = if batch.isSome ∧ r = s then [] else (w.socket r).pending)
    (hwiring : ∀ r, (u.socket r).wiring = (w.socket r).wiring)
    (hwired : (u.fresh s body batch).Wired (w.socket s))
    (hfirst : batch = none → ∀ (c : Nat) (x : Call), w.calls[c]? = some x → x.owner ≠ s) :
    Settled w.calls.length b (u.issue s body batch) := by
  set v := u.issue s body batch
  have hvcalls : v.calls = w.calls ++ [u.fresh s body batch] := by
    rw [World.calls_issue, hcalls]
  have hget : v.calls[w.calls.length]? = some (u.fresh s body batch) := by
    rw [hvcalls, List.getElem?_concat_length]
  have hvsize : v.sockets.length = w.sockets.length :=
    (u.length_sockets_update s _).trans hsize
  have hfield : ∀ {α : Type} (field : Socket → α),
      (∀ x c, field { x with inflight := c } = field x) →
      ∀ r, field (v.socket r) = field (u.socket r) := by
    intro α field hf r
    rw [World.socket_issue]
    split
    next hr => rw [hf, hr.1]
    next => rfl
  have hmarks : Flights (fun r => Duty.resume r ∈ w.agenda) b.taken u :=
    h.flights.congr hcalls hloop hsize hinflight fun r _ ho => by rwa [hstate] at ho
  have hflights := hmarks.issue (by rwa [hsize]) (by rwa [hinflight]) (by rwa [hloop]) body batch
  have hopen : completed b.taken w.calls.length = false :=
    h.flights.not_completed_of_none (List.getElem?_eq_none le_rfl)
  have hvagenda : v.agenda = w.agenda := hagenda
  have hledger : Ledger (b.issue w.calls.length (some (u.fresh s body batch))) v := by
    refine h.ledger.issue hvcalls hopen hloop hvsize ?_ hbatch ?_
    · intro r
      rw [hfield (·.requeue) (fun _ _ => rfl), hrequeue]
    · intro r
      rw [hfield (·.pending) (fun _ _ => rfl)]
      exact hpending r
  rw [Settled, hget]
  exact
    { flights := by
        rw [taken_issue, hvagenda]
        exact hflights
      ledger := hledger
      wired := by
        rw [taken_issue]
        refine h.wired.issue hvcalls hwired hfirst (fun r => ?_) fun r => ?_
        · rw [hfield Socket.wiring (fun _ _ => rfl), hwiring]
        · rw [hfield (·.state) (fun _ _ => rfl), hstate]
      inbound := by
        rw [taken_issue, emitted_issue]
        exact h.inbound.congr h.flights (.of_append hvcalls) fun r => by rw [hvagenda]
      shape := by
        rw [hvagenda, hvsize]
        exact h.shape
      delivered r c hr hc := by
        rw [hvagenda] at hr
        rw [taken_issue]
        rw [u.inflight_issue (by rwa [hsize]), hinflight] at hc
        split at hc
        next heq =>
          -- a socket that delivers has a mark, the one that issues has none
          obtain ⟨d, hd, -⟩ := (h.flights.marks r).delivering hr
          rw [heq, hfree] at hd
          cases hd
        next => exact h.delivered r c hr hc }

/-- A drain of a socket that is open and has no call in flight. -/
theorem drain (s : Nat) : Settled w.calls.length b (w.drain s) := by
  unfold World.drain
  dsimp only
  split
  next hcond =>
    obtain ⟨hopened, hfree⟩ := hcond
    have hs := World.lt_of_opened hopened
    set f : Socket → Socket := fun x =>
      { x with pending := [], outbound := (w.socket s).pending.length } with hf
    refine h.issue (u := w.update s f) hs hfree (fun hq => (h.flights.fresh s hq).2.1 hopened)
      rfl rfl rfl (w.length_sockets_update s f) ?_ ?_ ?_ _
      (fun m hm => (Option.some.inj hm).symm) ?_ (w.field_update s f Socket.wiring fun _ => rfl) ?_
      fun hnone => by cases hnone
    · exact w.field_update s f (·.inflight) fun _ => rfl
    · exact w.field_update s f (·.state) fun _ => rfl
    · exact w.field_update s f (·.requeue) fun _ => rfl
    · intro r
      rw [World.socket_update]
      by_cases hr : r = s
      · rw [if_pos ⟨hr, hs⟩, if_pos ⟨rfl, hr⟩]
      · rw [if_neg fun hand => hr hand.1, if_neg fun hand => hr hand.2]
    · obtain ⟨id, hid⟩ := h.wired.opened s hopened
      refine ⟨id, hid, ?_⟩
      rw [World.fresh, World.socket_update, if_pos ⟨rfl, hs⟩]
      simp only [hf, hid, SessionId.wire]
  next => exact h.settled rfl

/-! ## Tasks -/

omit h in
/-- A socket that delivers nothing is the only one that a completed call adds, and takes away again. -/
theorem resume_iff_of_not_mem {r : Nat} (hnot : Duty.resume r ∉ agenda) (s : Nat) :
    (Duty.resume s ∈ agenda ∨ s = r) ∧ s ≠ r ↔ Duty.resume s ∈ agenda := by
  constructor
  · rintro ⟨hs | hs, hne⟩
    · exact hs
    · exact absurd hs hne
  · intro hs
    refine ⟨Or.inl hs, ?_⟩
    rintro rfl
    exact hnot hs

/-- A task that sends nothing and completes nothing. -/
theorem take (hn : w.loop.next? = some (t, l)) (hsend : ∀ s, t.sentOn? s = none)
    (honce : ∀ c, t.once? ≠ some (.complete c)) : Sound (b.take w t) { w with loop := l } where
  flights := h.flights.take hn honce
  ledger := h.ledger.take hn hsend fun c => (Task.of_not_completion honce c).2
  wired := h.wired.take t l
  inbound := h.inbound.take (fun s => Task.messages_of_not_completion honce w s) l
  shape := h.shape
  delivered s c hs hc :=
    (succeeded_append _ _ _).trans (by rw [h.delivered s c hs hc, Bool.true_or])

/-- A message is queued. -/
theorem take_send {text : String} (hn : w.loop.next? = some (.send s text, l)) : Sound (b.take w (.send s text))
      (({ w with loop := l } : World).update s fun x => { x with pending := x.pending ++ [text] }) := by
  set f : Socket → Socket := fun x => { x with pending := x.pending ++ [text] }
  set u : World := { w with loop := l }
  have hinflight : ∀ r, ((u.update s f).socket r).inflight = (u.socket r).inflight :=
    u.field_update s f (·.inflight) fun _ => rfl
  have hstate : ∀ r, ((u.update s f).socket r).state = (u.socket r).state :=
    u.field_update s f (·.state) fun _ => rfl
  have hsize := u.length_sockets_update s f
  exact
    { flights := by
        refine (h.flights.take hn fun c hc => ?_).congr rfl rfl hsize hinflight
          fun r _ ho => by rwa [hstate] at ho
        cases hc
      ledger := h.ledger.take_send hn
      wired := (h.wired.take _ l).same rfl (u.field_update s f Socket.wiring fun _ => rfl)
        fun r hr => by rwa [hstate] at hr
      inbound := h.inbound.take (fun _ => rfl) l
      shape := by
        rw [hsize]
        exact h.shape
      delivered r c hr hc := by
        rw [hinflight] at hc
        exact (succeeded_append _ _ _).trans (by rw [h.delivered r c hr hc, Bool.true_or]) }

/-- A task that completes a call: the call was issued, it is marked and not aborted, its socket
delivers nothing, and from now on the mark stands for a completed call. -/
theorem completion (hn : w.loop.next? = some (t, l)) (ht : t.once? = some (.complete c)) :
    ∃ x, w.calls[c]? = some x ∧ x.aborted = false ∧ completed b.taken c = false ∧
      (w.socket x.owner).inflight = some c ∧ Duty.resume x.owner ∉ w.agenda ∧
      Flights (fun s => Duty.resume s ∈ w.agenda ∨ s = x.owner) (b.taken ++ [t])
        { w with loop := l } := by
  obtain ⟨hc, x, hx, hab, hmark⟩ := h.flights.call_of_completion hn ht
  refine ⟨x, hx, hab, hc, hmark, fun hr => ?_, h.flights.take_completion hn ht hx⟩
  rw [completed_of_succeeded (h.delivered _ c hr hmark)] at hc
  cases hc

/-- A success that brings nothing is reported and its call given up. -/
theorem release_of_succeed (hn : w.loop.next? = some (.succeed c body, l))
    (hx : w.calls[c]? = some x) (hnothing : ∀ s, (Task.succeed c body).messages w s = []) :
    Sound (b.take w (.succeed c body)) (({ w with loop := l } : World).release x.owner) := by
  obtain ⟨y, hy, -, -, hmark, hnot, hflights⟩ := h.completion hn rfl
  obtain rfl : x = y := Option.some.inj (hx.symm.trans hy)
  set u : World := { w with loop := l }
  have hsucc : ∀ d, succeeded (b.taken ++ [Task.succeed c body]) d =
      (succeeded b.taken d || c == d) := fun d => succeeded_append _ _ _
  exact
    { flights := by
        rw [World.agenda_release]
        refine (hflights.release (Or.inr rfl) fun d hd => ?_).mono_R fun s => ?_
        · obtain rfl : c = d := Option.some.inj (hmark.symm.trans hd)
          rw [hsucc, beq_self_eq_true, Bool.or_true]
        · exact resume_iff_of_not_mem hnot s
      ledger := (h.ledger.take hn (fun _ => rfl) fun _ => rfl).release x.owner
      wired := (h.wired.take _ l).release x.owner
      inbound := (h.inbound.take hnothing l).congr hflights (u.keeps_release x.owner) fun s => by
        rw [World.agenda_release]
      shape := by
        rw [World.agenda_release, World.length_sockets_release]
        exact h.shape
      delivered s d hs hd := by
        rw [World.agenda_release] at hs
        rw [World.inflight_release] at hd
        split at hd
        · cases hd
        · exact (hsucc d).trans (by rw [h.delivered s d hs hd, Bool.true_or]) }

/-- A change of a socket that moves no message and no mark. -/
theorem update {f : Socket → Socket} (hinflight : ∀ x, (f x).inflight = x.inflight)
    (hpending : ∀ x, (f x).pending = x.pending) (hrequeue : ∀ x, (f x).requeue = x.requeue)
    (hflights : Flights (fun r => Duty.resume r ∈ w.agenda) b.taken (w.update s f))
    (hwired : Wired b.taken (w.update s f)) : Sound b (w.update s f) where
  flights := hflights
  ledger := h.ledger.same rfl rfl (w.length_sockets_update s f)
    (w.field_update s f (·.pending) hpending) (w.field_update s f (·.requeue) hrequeue)
  wired := hwired
  inbound := h.inbound
  shape := by
    rw [w.length_sockets_update]
    exact h.shape
  delivered r c hr hc := by
    rw [w.field_update s f (·.inflight) hinflight] at hc
    exact h.delivered r c hr hc

/-- A socket opens that has issued a call and has a session. -/
theorem opened (hnot : Task.establish s ∉ w.loop.queue) (hsession : ∃ id, (w.socket s).session = .assigned id) :
    Sound b (w.update s fun x => { x with state := .opened }) := by
  refine h.update (fun _ => rfl) (fun _ => rfl) (fun _ => rfl) (h.flights.opened hnot)
    (h.wired.congr (.of_eq rfl) rfl (w.field_update s _ Socket.wiring fun _ => rfl) fun r hr => ?_)
  by_cases hrs : r = s
  · rw [hrs]
    exact hsession
  · rw [World.socket_update, if_neg fun hand => hrs hand.1] at hr
    exact h.wired.opened r hr

/-- The messages of a response are to be delivered. -/
theorem deliver_of_succeed (hn : w.loop.next? = some (.succeed c body, l))
    (hx : w.calls[c]? = some x) {batch messages : List String} (hbatch : x.batch = some batch)
    (hbody : decodeDrainResponse body = .ok messages) :
    Sound (b.take w (.succeed c body))
      (({ w with loop := l } : World).push [.dispatch x.owner messages, .resume x.owner]) := by
  obtain ⟨y, hy, -, -, hmark, hnot, hflights⟩ := h.completion hn rfl
  obtain rfl : x = y := Option.some.inj (hx.symm.trans hy)
  have hresume : ∀ s, Duty.resume s ∈ [.dispatch x.owner messages, .resume x.owner] ++ w.agenda ↔
      Duty.resume s ∈ w.agenda ∨ s = x.owner := by
    intro s
    simp [or_comm]
  exact
    { flights := by
        have hsame := hflights.mono_R fun s => (hresume s).symm
        exact { hsame with }
      ledger := { h.ledger.take hn (fun _ => rfl) fun _ => rfl with }
      wired := { h.wired.take (.succeed c body) l with }
      inbound := h.inbound.deliver h.shape hx hbatch hbody hnot l
      shape := by
        show AgendaShape _ ([Duty.dispatch x.owner messages] ++ (.resume x.owner :: w.agenda))
        refine (h.shape.resume_cons hnot).append ?_ ?_ ?_
        · simp [Duty.inner]
        · simp [Duty.resumes?]
        · intro s d hd hne
          rw [List.mem_singleton.1 hd] at hne
          simp only [Duty.messages] at hne
          split at hne
          next heq =>
            rw [heq]
            exact List.mem_cons_self
          next => exact absurd rfl hne
      delivered s d hs hd := by
        refine (succeeded_append _ _ _).trans ?_
        rcases (hresume s).1 hs with hs | rfl
        · rw [h.delivered s d hs hd, Bool.true_or]
        · obtain rfl : c = d := Option.some.inj (hmark.symm.trans hd)
          simp [Task.succeeds] }

/-- A failure is reported: the mark goes, and on a socket that queues again the batch is put back. -/
theorem unmark_of_fail (hn : w.loop.next? = some (.fail c, l)) (hx : w.calls[c]? = some x)
    (hcalls : v.calls = w.calls) (hloop : v.loop = l) (hagenda : v.agenda = w.agenda)
    (hsize : v.sockets.length = w.sockets.length)
    (hsocket : ∀ s, v.socket s = if s = x.owner then
      { w.socket s with
        inflight := none
        pending := (if (w.socket s).requeue then x.batch.getD [] else []) ++ (w.socket s).pending }
      else w.socket s) : Sound (b.take w (.fail c)) v := by
  obtain ⟨y, hy, -, hc, hmark, hnot, hflights⟩ := h.completion hn rfl
  obtain rfl : x = y := Option.some.inj (hx.symm.trans hy)
  set u : World := { w with loop := l }
  have hinflight : ∀ s, (v.socket s).inflight =
      if s = x.owner then none else (w.socket s).inflight := by
    intro s
    rw [hsocket]
    split <;> rfl
  have hsucc : ∀ d, succeeded (b.taken ++ [Task.fail c]) d = succeeded b.taken d := by
    intro d
    rw [succeeded_append]
    exact Bool.or_false _
  have hunmarked := hflights.unmark (s := x.owner) (Or.inr rfl) fun d z hz hown hd => by
    rw [hsucc] at hd
    rcases h.flights.released d z hz hd with ha | hm
    · exact ha
    · -- the marked call is the one that has just failed
      rw [hown, hmark, Option.some.injEq] at hm
      rw [hm, completed_of_succeeded hd] at hc
      cases hc
  exact
    { flights := by
        rw [hagenda]
        refine (hunmarked.congr hcalls hloop (hsize.trans (u.length_sockets_update _ _).symm) ?_
          ?_).mono_R fun s => ?_
        · intro s
          rw [hinflight, World.inflight_unmark]
          rfl
        · intro s _ ho
          rw [World.state_unmark]
          rw [hsocket] at ho
          split at ho <;> exact ho
        · exact resume_iff_of_not_mem hnot s
      ledger := by
        refine h.ledger.take_fail h.flights hn hx hcalls hloop hsize ?_ ?_
        · intro s
          rw [hsocket]
          split <;> rfl
        · intro s
          rw [hsocket]
          by_cases hs : s = x.owner
          · cases hr : (w.socket s).requeue <;> simp [hs]
          · rw [if_neg hs, if_neg fun hand => hs hand.1]
      wired := by
        refine (h.wired.take _ l).same hcalls (fun s => ?_) fun s ho => ?_
        · rw [hsocket]
          split <;> rfl
        · rw [hsocket] at ho
          split at ho <;> exact ho
      inbound := (h.inbound.take (fun _ => rfl) l).congr hflights (.of_eq hcalls) fun s => by
        rw [hagenda]
      shape := by
        rw [hagenda, hsize]
        exact h.shape
      delivered s d hs hd := by
        rw [hagenda] at hs
        rw [hinflight] at hd
        split at hd
        · cases hd
        · exact (hsucc d).trans (h.delivered s d hs hd) }

/-- The answer to a handshake assigns the session. -/
theorem assign {id : String} (hmem : Task.succeed c body ∈ b.taken)
    (hx : w.calls[c]? = some x) (hbatch : x.batch = none) (hid : decodeHandshakeResponse body = .ok id)
    (hnew : (w.socket x.owner).session = .unassigned) :
    Sound b (w.update x.owner fun y => { y with session := .assigned id }) := by
  refine h.update (fun _ => rfl) (fun _ => rfl) (fun _ => rfl) ?_
    (h.wired.assign hmem hx rfl hbatch hid hnew)
  refine h.flights.congr rfl rfl (w.length_sockets_update _ _)
    (w.field_update _ _ (·.inflight) fun _ => rfl) fun s _ ho => ?_
  rwa [w.field_update x.owner (fun y => { y with session := .assigned id }) (·.state) fun _ => rfl] at ho

/-- A handshake or a drain has succeeded. -/
theorem succeed (hn : w.loop.next? = some (.succeed c body, l)) :
    Settled w.calls.length (b.take w (.succeed c body))
      (({ w with loop := l } : World).execute (.succeed c body)) := by
  obtain ⟨x, hx, -, hopen, hmark, -⟩ := h.completion hn rfl
  set u : World := { w with loop := l }
  have hs := World.lt_of_inflight hmark
  have hlength : (u.release x.owner).calls.length = w.calls.length := u.length_calls_release _
  have hux : u.calls[c]? = some x := hx
  cases hbatch : x.batch with
  | none =>
    have hexecute : u.execute (.succeed c body) = u.handshakeSucceeded x.owner body := by
      simp only [World.execute, hux, hbatch]
    have hreleased := h.release_of_succeed hn hx fun s => Task.messages_of_handshake hx hbatch s body
    rw [hexecute]
    unfold World.handshakeSucceeded
    cases hbody : decodeHandshakeResponse body with
    | error reason =>
      refine Sound.settled ((hreleased.quiet (.log _ _ _ _ _)).quiet (.push _ ?_)) hlength
      simp [Duty.outer]
    | ok id =>
      dsimp only
      obtain ⟨y, hy, howner, -, hkept⟩ := u.keeps_release x.owner c x hx
      -- the session is not assigned yet: a socket has one handshake, and this is its answer
      have hnew : ((u.release x.owner).socket y.owner).session = .unassigned := by
        rw [howner, u.field_release x.owner (·.session) fun _ _ => rfl]
        exact h.wired.unassigned hx hbatch hopen
      have hassigned := hreleased.assign
        (List.mem_append_right _ (List.mem_singleton_self _)) hy (hkept.trans hbatch) hbody hnew
      rw [howner] at hassigned
      split
      · -- the handshake of a socket that has issued a call is not queued
        have hnot : Task.establish x.owner ∉ (u.release x.owner).loop.queue := by
          rw [World.loop_release]
          intro hq
          have hqueue : Task.establish x.owner ∈ w.loop.queue := by
            rw [queue_of_next? hn]
            exact List.mem_cons_of_mem _ hq
          exact (h.flights.fresh x.owner hqueue).2.2 c x hx rfl
        have hsession : ∃ id', (((u.release x.owner).update x.owner
            fun y => { y with session := .assigned id }).socket x.owner).session =
              .assigned id' := by
          refine ⟨id, ?_⟩
          rw [World.socket_update, if_pos ⟨rfl, by rwa [World.length_sockets_release]⟩]
        refine Sound.settled
          (((hassigned.opened hnot hsession).quiet (.log _ _ _ _ _)).quiet (.push _ ?_)) hlength
        simp [Duty.outer]
      · exact Sound.settled (hassigned.quiet (.log _ _ _ _ _)) hlength
  | some batch =>
    have hexecute : u.execute (.succeed c body) = u.drainSucceeded x.owner body := by
      simp only [World.execute, hux, hbatch]
    rw [hexecute]
    unfold World.drainSucceeded
    cases hbody : decodeDrainResponse body with
    | error reason =>
      -- a body that cannot be read brings no messages
      have hreleased := h.release_of_succeed hn hx fun s => by
        rw [Task.messages_of_drain hx hbatch, hbody]
        exact ite_self _
      refine Sound.settled (hreleased.quiet (.push _ ?_)) hlength
      simp [Duty.outer]
    | ok messages => exact Sound.settled (h.deliver_of_succeed hn hx hbatch hbody) rfl

/-- A handshake or a drain has failed. -/
theorem fail (hn : w.loop.next? = some (.fail c, l)) :
    Settled w.calls.length (b.take w (.fail c)) (({ w with loop := l } : World).execute (.fail c)) := by
  obtain ⟨x, hx, hab, -, hmark, -⟩ := h.completion hn rfl
  have hs := World.lt_of_inflight hmark
  set u : World := { w with loop := l }
  have hux : u.calls[c]? = some x := hx
  have hunmarked : ∀ r, ((u.update x.owner fun x => { x with inflight := none }).socket r) =
      if r = x.owner then { w.socket r with inflight := none } else w.socket r := by
    intro r
    rw [World.socket_update]
    by_cases hr : r = x.owner
    · rw [if_pos ⟨hr, hs⟩, if_pos hr, hr]
      rfl
    · rw [if_neg fun hand => hr hand.1, if_neg hr]
      rfl
  cases hbatch : x.batch with
  | none =>
    have hexecute : u.execute (.fail c) = u.handshakeFailed x.owner u.fault := by
      simp only [World.execute, hux, hab, hbatch, Bool.false_eq_true, if_false]
    have hfailed := h.unmark_of_fail (v := u.update x.owner fun x => { x with inflight := none })
      hn hx rfl rfl rfl (u.length_sockets_update _ _) fun r => by
        rw [hunmarked, hbatch]
        split <;> simp
    rw [hexecute]
    refine Sound.settled ((hfailed.quiet (.log _ _ _ _ _)).quiet (.push _ ?_)) rfl
    simp [Duty.outer]
  | some batch =>
    have hexecute : u.execute (.fail c) = u.drainFailed x.owner batch u.fault := by
      simp only [World.execute, hux, hab, hbatch, Bool.false_eq_true, if_false]
    rw [hexecute]
    unfold World.drainFailed
    dsimp only
    set v := (u.update x.owner fun x => { x with inflight := none }).log x.owner .warn
      "write attempt failed" [("session", .text (u.socket x.owner).session.wire),
        ("batch", .number batch.length), ("requeued", .truth (u.socket x.owner).requeue),
        ("error", .failure u.fault)]
    have hvsocket : ∀ r, v.socket r =
        if r = x.owner then { w.socket r with inflight := none } else w.socket r := hunmarked
    have hvsize : v.sockets.length = w.sockets.length := u.length_sockets_update _ _
    -- the batch goes back or not; the socket may close then, which no invariant notices
    have hback : Settled w.calls.length (b.take w (.fail c)) (if (u.socket x.owner).requeue then
        v.update x.owner fun x => { x with pending := batch ++ x.pending } else v) := by
      split
      next hrequeue =>
        set f : Socket → Socket := fun x => { x with pending := batch ++ x.pending } with hf
        refine Sound.settled (h.unmark_of_fail (v := v.update x.owner f) hn hx rfl rfl rfl
          ((v.length_sockets_update _ f).trans hvsize) fun r => ?_) rfl
        rw [World.socket_update, hvsize, hvsocket, hvsocket]
        by_cases hr : r = x.owner
        · subst hr
          have hrq : (w.socket x.owner).requeue = true := hrequeue
          simp [hf, hs, hrq, hbatch]
        · rw [if_neg fun hand => hr hand.1, if_neg hr, if_neg hr]
      next hrequeue =>
        refine Sound.settled (h.unmark_of_fail (v := v) hn hx rfl rfl rfl hvsize fun r => ?_) rfl
        rw [hvsocket]
        by_cases hr : r = x.owner
        · subst hr
          have hrq : ¬ (w.socket x.owner).requeue = true := hrequeue
          simp [hrq]
        · rw [if_neg hr, if_neg hr]
    split
    · exact hback.quiet (.close _ _)
    · exact hback

/-- What a task does. -/
theorem execute (hn : w.loop.next? = some (t, l)) :
    Settled w.calls.length (b.take w t) (({ w with loop := l } : World).execute t) := by
  cases t with
  | establish s =>
    have htaken := h.take hn (fun _ => rfl) fun c hc => by cases hc
    have hq := queue_of_next? hn
    obtain ⟨hs, -, hnone⟩ := h.flights.fresh s (by rw [hq]; exact List.mem_cons_self)
    refine htaken.issue (u := World.log { w with loop := l } s .debug "handshake" []) hs ?_ ?_
      rfl rfl rfl rfl (fun _ => rfl) (fun _ => rfl) (fun _ => rfl) none (fun m hm => by cases hm)
      (fun r => by simp [World.log, World.note, World.socket]) (fun _ => rfl) ?_ fun _ => hnone
    · rw [Option.eq_none_iff_forall_ne_some]
      intro c hc
      obtain ⟨x, hx, hown⟩ := h.flights.marked hc
      exact hnone c x hx hown
    · intro hmem
      have hnodup := h.flights.once
      rw [hq, List.filterMap_append, List.nodup_append] at hnodup
      exact (List.nodup_cons.1 hnodup.2.1).1 (List.mem_filterMap.2 ⟨_, hmem, rfl⟩)
    · show Exchange.ofSession _ (w.socket s).session.wire _ none = _
      rw [h.wired.unassigned_of_none hnone]
      rfl
  | send s text =>
    have hsent := h.take_send hn
    show Settled _ _ (World.send _ s text)
    unfold World.send
    dsimp only
    split
    · exact hsent.settled rfl
    · exact hsent.drain s
  | close s =>
    have htaken := h.take hn (fun _ => rfl) fun c hc => by cases hc
    exact (htaken.settled rfl).quiet (.close _ s)
  | closeWhenDrained s =>
    have htaken := h.take hn (fun _ => rfl) fun c hc => by cases hc
    refine ((htaken.settled rfl).quiet (.update _ s (fun x => { x with closing := true })
      (fun _ => rfl) (fun _ => rfl) (fun _ => rfl) (fun _ => rfl) fun _ ho => ho)).quiet
      (.closeIfDrained _ s)
  | handle s slot script =>
    have htaken := h.take hn (fun _ => rfl) fun c hc => by cases hc
    exact (htaken.settled rfl).quiet (.update _ s
      (fun x => { x with handlers := x.handlers.set slot script })
      (fun _ => rfl) (fun _ => rfl) (fun _ => rfl) (fun _ => rfl) fun _ ho => ho)
  | succeed c body => exact h.succeed hn
  | fail c => exact h.fail hn

/-! ## Handlers -/

/-- An operation is posted on a socket that exists. -/
theorem post (honce : t.once? = none)
    (hsend : ∀ s text, t = .send s text → s < w.sockets.length) : Sound b (w.post t).1 where
  flights := h.flights.post_of_none honce
  ledger := h.ledger.post hsend
  wired := { h.wired with }
  __ := h

theorem postOr (honce : t.once? = none)
    (hsend : ∀ s text, t = .send s text → s < w.sockets.length) (refused : Failure → Note) :
    Sound b (w.postOr t refused) := by
  have hposted := h.post honce hsend
  unfold World.postOr
  dsimp only
  split
  · exact hposted
  · exact hposted.quiet (.note _ _)

theorem closeLoop : Sound b { w with loop := w.loop.close } where
  flights := h.flights.closeLoop
  ledger := h.ledger.closeLoop
  wired := { h.wired with }
  __ := h

/-- A handler throws: the rest of its acts is dropped. -/
theorem throw (hin : insideHandler w.agenda = true) (value : Thrown) : Sound b (w.throw value) := by
  obtain ⟨acts, s, event, rest, hagenda, hacts, hunwind, -⟩ := unwind_nested hin h.shape.nested
  have hdropped : Sound b { w with agenda := rest } := by
    have hsplit : w.agenda = (acts ++ [.leave s event]) ++ rest := by simp [hagenda]
    refine h.drop hsplit fun d hd => ?_
    rcases List.mem_append.1 hd with hd | hd
    · exact ⟨Duty.resumes?_of_inner (hacts d hd), Duty.messages_of_inner (hacts d hd)⟩
    · rw [List.mem_singleton.1 hd]
      exact ⟨rfl, fun _ => rfl⟩
  unfold World.throw
  rw [hunwind]
  dsimp only
  split
  · exact hdropped.quiet (.push _ (by simp [Duty.outer]))
  · exact hdropped.quiet (.push _ (by simp [Duty.outer]))
  · exact hdropped.quiet (.log _ _ _ _ _)
  · exact hdropped.quiet (.log _ _ _ _ _)

/-- An act of the handler that is being executed. -/
theorem perform (hin : insideHandler w.agenda = true) (hs : s < w.sockets.length)
    (data : String) (a : Act) : Sound b (w.perform s data a) := by
  cases a with
  | send text echo =>
    refine h.postOr rfl (fun r m hm => ?_) _
    cases hm
    exact hs
  | close | closeWhenDrained => exact h.postOr rfl (fun r m hm => by cases hm) _
  | closeLoop => exact h.closeLoop
  | throw value => exact h.throw hin value
  | replace slot script | remove slot => exact h.post rfl fun r m hm => by cases hm
  | whenData expected script =>
    simp only [World.perform]
    split
    · refine h.replan (h.shape.acts_append hin hs data script) (fun r => ?_) fun r => ?_
      · simp
      · simp [List.flatMap_map, Duty.messages]
    · exact h
  | runLoop => exact h.quiet (.push _ (by simp [Duty.outer]))
  | report => exact h.quiet (.note _ _)

/-- The books have one more occasion. -/
theorem booked {event : Event} (hagenda : w.agenda = .emit s event :: rest) :
    Sound (b.emit s event) { w with agenda := rest } where
  flights := by
    have hsame : Flights (fun r => Duty.resume r ∈ rest) b.taken w :=
      h.flights.mono_R fun r => by simp [hagenda]
    exact { hsame with }
  ledger := { h.ledger with }
  wired := { h.wired with }
  inbound := h.inbound.emit hagenda
  shape := by
    have hshape := h.shape
    rw [hagenda] at hshape
    exact hshape.tail
  delivered r c hr hc := by
    refine h.delivered r c ?_ hc
    rw [hagenda]
    exact List.mem_cons_of_mem _ hr

/-- The consumer is called. -/
theorem emit (s : Nat) (event : Event) : Sound b (w.emit s event) := by
  unfold World.emit
  split
  · exact h
  next script hscript =>
    have hs : s < w.sockets.length := by
      by_contra hle
      rw [World.socket_of_le (Nat.le_of_not_lt hle)] at hscript
      cases hslot : event.slot <;> rw [hslot] at hscript <;> cases hscript
    have hcalled : Sound b (w.note (.called s event)) := h.quiet (.note _ _)
    refine hcalled.replan ?_ (fun r => ?_) fun r => ?_
    · rw [List.append_assoc]
      exact (hcalled.shape.leave_cons hs event).acts_append rfl hs event.data script
    · simp
    · simp [List.flatMap_map, Duty.messages]

/-! ## Steps and moves -/

/-- The end of a delivery: its call is given up. -/
theorem release_of_resume (hagenda : w.agenda = .resume s :: rest) :
    Sound b (({ w with agenda := rest } : World).release s) := by
  set u : World := { w with agenda := rest }
  have hshape := h.shape
  rw [hagenda] at hshape
  have hmem : ∀ r, Duty.resume r ∈ w.agenda ↔ r = s ∨ Duty.resume r ∈ rest := by
    intro r
    rw [hagenda, List.mem_cons, Duty.resume.injEq]
  have hflights : Flights (fun r => Duty.resume r ∈ w.agenda) b.taken u := { h.flights with }
  have hs : Duty.resume s ∈ w.agenda := (hmem s).2 (Or.inl rfl)
  exact
    { flights := by
        rw [World.agenda_release]
        refine (hflights.release hs fun c hc => h.delivered s c hs hc).mono_R fun r => ?_
        rw [hmem]
        constructor
        · rintro ⟨hr | hr, hne⟩
          · exact absurd hr hne
          · exact hr
        · intro hr
          refine ⟨Or.inr hr, ?_⟩
          rintro rfl
          exact hshape.not_mem_of_resume_cons hr
      ledger := Ledger.release (w := u) { h.ledger with } s
      wired := Wired.release (w := u) { h.wired with } s
      inbound := by
        refine h.inbound.congr h.flights (.trans (.of_eq rfl) (u.keeps_release s)) fun r => ?_
        rw [World.agenda_release, hagenda]
        rfl
      shape := by
        rw [World.agenda_release, World.length_sockets_release]
        exact hshape.tail
      delivered r c hr hc := by
        rw [World.agenda_release] at hr
        rw [World.inflight_release] at hc
        split at hc
        · cases hc
        · exact h.delivered r c ((hmem r).2 (Or.inr hr)) hc }

end Sound

namespace World

theorem calls_postOr (w : World) (t : Task) (refused : Failure → Note) :
    (w.postOr t refused).calls = w.calls := by
  unfold postOr
  dsimp only
  split <;> rfl

theorem agenda_postOr (w : World) (t : Task) (refused : Failure → Note) :
    (w.postOr t refused).agenda = w.agenda := by
  unfold postOr
  dsimp only
  split <;> rfl

theorem calls_throw (w : World) (value : Thrown) : (w.throw value).calls = w.calls := by
  unfold throw
  split
  · rfl
  · split <;> rfl

theorem calls_perform (w : World) (s : Nat) (data : String) (a : Act) :
    (w.perform s data a).calls = w.calls := by
  cases a with
  | send | close | closeWhenDrained => exact calls_postOr _ _ _
  | throw value => exact calls_throw w value
  | whenData expected script =>
    simp only [perform]
    split <;> rfl
  | _ => rfl

theorem calls_emit (w : World) (s : Nat) (event : Event) : (w.emit s event).calls = w.calls := by
  unfold emit
  split <;> rfl

end World

/-- The next message of a response. -/
theorem Sound.dispatch (h : Sound b w) {m : String} {more : List String}
    (hagenda : w.agenda = .dispatch s (m :: more) :: rest) :
    Sound b { w with agenda := [.emit s (.message m), .dispatch s more] ++ rest } := by
  have hshape := h.shape
  rw [hagenda] at hshape
  refine h.replan (hshape.tail.append ?_ ?_ ?_) ?_ ?_
  · simp [Duty.inner]
  · simp [Duty.resumes?]
  · intro r d hd hne
    have hr : s = r := by
      by_contra hsr
      rcases List.mem_pair.1 hd with rfl | rfl
      · exact hne (if_neg hsr)
      · exact hne (if_neg hsr)
    subst hr
    have hmem : Duty.resume s ∈ .dispatch s (m :: more) :: rest :=
      hshape.resume_mem (by simp [Duty.messages])
    simpa using hmem
  · intro r
    rw [hagenda]
    simp
  · intro r
    rw [hagenda]
    by_cases hr : s = r <;> simp [Duty.messages, hr]

/-- A step: what it takes, calls and issues is entered in the books. -/
theorem Sound.step (h : Sound b w) : Settled w.calls.length (w.booked b) w.step := by
  unfold World.step World.booked World.taking? World.emitting?
  cases hagenda : w.agenda with
  | nil => exact h.settled rfl
  | cons d rest =>
    have hdrop : d.resumes? = none → (∀ s, d.messages s = []) → Sound b { w with agenda := rest } := by
      intro hd hm
      have hsplit : w.agenda = [d] ++ rest := hagenda
      refine h.drop hsplit fun e he => ?_
      rw [List.mem_singleton.1 he]
      exact ⟨hd, hm⟩
    have hshape := h.shape
    rw [hagenda] at hshape
    cases d with
    | run ran inside =>
      have hrest := hdrop rfl fun _ => rfl
      dsimp only [World.discharge]
      cases hn : w.loop.next? with
      | none =>
        cases inside with
        | none => exact (hrest.quiet (.record _ w.fault ran)).settled rfl
        | some s => exact (hrest.quiet (.note _ _)).settled rfl
      | some next =>
        obtain ⟨t, l⟩ := next
        have houter : ∀ d ∈ [Duty.run (ran + 1) inside], d.outer = true := by
          simp [Duty.outer]
        exact (hrest.quiet (.push _ houter)).execute hn
    | emit s event =>
      exact ((h.booked hagenda).emit s event).settled
        (congrArg List.length (World.calls_emit _ _ _))
    | act s data a =>
      refine ((hdrop rfl fun _ => rfl).perform hshape.nested.1 ?_ data a).settled
        (congrArg List.length (World.calls_perform _ _ _ _))
      exact hshape.ranged s data a List.mem_cons_self
    | leave s event => exact (hdrop rfl fun _ => rfl).settled rfl
    | dispatch s messages =>
      cases messages with
      | nil => exact (hdrop rfl fun r => ite_self _).settled rfl
      | cons m more => exact (h.dispatch hagenda).settled rfl
    | resume s =>
      have hreleased := h.release_of_resume hagenda
      have hdrained := hreleased.drain s
      rw [World.length_calls_release] at hdrained
      exact hdrained.quiet (.closeIfDrained _ s)
    | begin s => exact ((hdrop rfl fun _ => rfl).drain s).quiet (.closeIfDrained _ s)
    | closeIfClosing s =>
      have hrest := hdrop rfl fun _ => rfl
      simp only [World.discharge]
      split
      · exact (hrest.settled rfl).quiet (.close _ s)
      · exact hrest.settled rfl

/-- A socket is created. -/
theorem Sound.create (h : Sound b w) (o : Options) : Sound b (w.create o) := by
  have hposted : Sound b ((w.addSocket o.socket).post (.establish w.sockets.length)).1 :=
    { flights := h.flights.create o
      ledger := (h.ledger.addSocket rfl).post fun s text hs => by cases hs
      wired := { h.wired.addSocket (x := o.socket) h.flights.owned rfl rfl with }
      inbound := h.inbound
      shape := by
        refine h.shape.mono ?_
        show w.sockets.length ≤ (w.sockets ++ [o.socket]).length
        simp
      delivered s c hs hc := by
        change ((w.addSocket o.socket).socket s).inflight = some c at hc
        rw [World.socket_addSocket] at hc
        split at hc
        · cases hc
        · exact h.delivered s c hs hc }
  exact hposted.quiet (.create w o)

/-- A call is answered. -/
theorem Sound.answer (h : Sound b w) (hc : w.awaits c = true) (ht : t.once? = some (.complete c)) :
    Sound b (w.answer c t).1 where
  flights := h.flights.answer hc ht
  ledger := h.ledger.answer c fun s text hs => by
    rw [hs] at ht
    cases ht
  wired := by
    refine h.wired.congr (w.keeps_answer c t) ?_ (fun _ => rfl) h.wired.opened
    exact List.length_modify _ _ _
  inbound := h.inbound.congr h.flights (w.keeps_answer c t) fun _ => rfl
  __ := h

/-- The handler that is being executed is one of a socket that exists. -/
theorem Sound.handler (h : Sound b w) {data : String} (hw : w.handler? = some (s, data)) :
    insideHandler w.agenda = true ∧ s < w.sockets.length := by
  have hshape := h.shape
  unfold World.handler? at hw
  cases hagenda : w.agenda with
  | nil =>
    rw [hagenda] at hw
    cases hw
  | cons d rest =>
    rw [hagenda] at hw hshape
    cases d with
    | act r _ a =>
      cases hw
      exact ⟨rfl, hshape.ranged _ _ a List.mem_cons_self⟩
    | leave r event =>
      cases hw
      exact ⟨rfl, hshape.left _ event List.mem_cons_self⟩
    | _ => cases hw

/-- Every move keeps the invariant. -/
theorem sound_after {h : History} (hs : Sound h.toBooks h.world) (m : Move) :
    Sound (h.after m).toBooks (h.after m).world := by
  have hmoves := h.moves_after m
  generalize h.after m = k at hmoves ⊢
  cases hmoves with
  | idle => exact hs
  | step => exact hs.step
  | drive hempty =>
    have hrun : AgendaShape h.world.sockets.length ([.run 0 none] ++ h.world.agenda) :=
      hs.shape.outer_append (by simp [Duty.outer])
    rw [hempty] at hrun
    refine hs.replan hrun (fun s => ?_) fun s => ?_
    · simp [hempty]
    · simp [hempty, Duty.messages]
  | create o => exact hs.create o
  | post op hlt =>
    refine hs.post ?_ fun r text ht => ?_
    · cases op <;> rfl
    · cases op <;> cases ht
      exact hlt
  | act a hw =>
    obtain ⟨hin, hlt⟩ := hs.handler hw
    exact hs.perform hin hlt _ a
  | succeed _ hc | fail hc => exact hs.answer hc rfl
  | fault cause => exact hs.quiet (.record _ cause _)
  | closeLoop => exact hs.closeLoop

theorem sound_empty : Sound {} {} where
  flights :=
    { owned := by simp, marks _ := .free (by simp [World.callsOf]) (by simp)
      aborted := by simp, released := by simp, fresh := by simp, once := by simp
      created := by simp, answered := by simp }
  ledger :=
    { whole := by simp [Books.placed, World.callsOf, Books.sent]
      known := by simp, pending := by simp [World.socket], batches := by simp
      ranged := by simp, silent := by simp [Books.sent] }
  wired :=
    { calls := by simp, assigned := by simp [World.socket]
      opened := by simp [World.socket], once := by simp }
  inbound _ := rfl
  shape :=
    { nested := trivial, single := List.nodup_nil, ranged := by simp, left := by simp
      attended s front rest hsplit hne := by
        rw [(List.append_eq_nil_iff.1 hsplit.symm).2] at hne
        exact absurd rfl hne }
  delivered _ _ hs := (List.not_mem_nil hs).elim

/-- The invariant holds of every history. -/
theorem sound_run (moves : List Move) :
    Sound (History.run moves).toBooks (History.run moves).world := by
  induction moves using List.reverseRecOn with
  | nil => exact sound_empty
  | append_singleton more m ih =>
    rw [History.run_concat]
    exact sound_after ih m

end PollSocket.Socket
