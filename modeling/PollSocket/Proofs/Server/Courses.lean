import PollSocket.Proofs.Server.Effects

set_option autoImplicit false

/-!
# The course of a request

A thread that serves a request goes through few stages, whatever its handlers do in between: the
request is refused, or it opens a connection and greets its client, or it drains a session. A drain
tells the handlers of its messages one by one, takes once, and answers with what it took. `Course` is
this life of a thread, with what it has told and taken so far; a step of the thread leads on in it
(`course_step`), and steps of other threads do not matter to it (`Course.congr`).
-/

namespace PollSocket.Server

variable {q : DrainRequest} {taken : List (List String)} {takes : List (Nat × List String)}
  {told : List (Nat × String)} {begun : List Nat} {front : List String} {c n : Nat} {o : Option Request}
  {r : Request} {id : String}

/-- The answer of a drain that has taken `result`; nothing of it arrives at a caller that cannot be
written to. -/
def Answered (unwritable : Bool) (result : Option (List String)) (a : Answer) : Prop :=
  a.status = 200 ∧
    match result with
    | none => a.body = []
    | some messages => a.body = drainResponseBody messages ∨ unwritable = true ∧ a.body = []

/-- Stages of a drain of connection `c`, by the messages that are still to be told, what was taken,
the answer and the agenda. -/
inductive Drain (c n : Nat) (unwritable : Bool) :
    List String → List (List String) → Answer → List Duty → Prop where
  | locking (rest : List String) :
    Drain c n unwritable rest [] {} [.lock c, .deliver c rest, .take c n, .unlock c]
  | delivering (rest : List String) {duties : List Duty} (h : ∀ d ∈ duties, d.side = true) :
    Drain c n unwritable rest [] {} (duties ++ [.deliver c rest, .take c n, .unlock c])
  | telling (m : String) (rest : List String) :
    Drain c n unwritable (m :: rest) [] {}
      [.trigger "message" c m, .deliver c rest, .take c n, .unlock c]
  | taking : Drain c n unwritable [] [] {} [.take c n, .unlock c]
  | waiting (deadline : Int) : Drain c n unwritable [] [] {} [.wait c n deadline, .unlock c]
  | replying (result : Option (List String)) :
    Drain c n unwritable [] result.toList {} [.reply c n result, .unlock c]
  | unlocking {result : Option (List String)} {a : Answer} (h : Answered unwritable result a) :
    Drain c n unwritable [] result.toList a [.unlock c]
  | done {result : Option (List String)} {a : Answer} (h : Answered unwritable result a) :
    Drain c n unwritable [] result.toList a []

theorem Answered.mono {u v : Bool} {result : Option (List String)} {a : Answer} (h : Answered u result a)
    (huv : u = true → v = true) : Answered v result a := by
  refine ⟨h.1, ?_⟩
  cases result with
  | none => exact h.2
  | some messages => exact h.2.imp_right fun hlost => ⟨huv hlost.1, hlost.2⟩

theorem Drain.mono {u v : Bool} {rest : List String} {a : Answer} {agenda : List Duty}
    (h : Drain c n u rest taken a agenda) (huv : u = true → v = true) : Drain c n v rest taken a agenda := by
  cases h with
  | locking rest => exact .locking rest
  | delivering rest h => exact .delivering rest h
  | telling m rest => exact .telling m rest
  | taking => exact .taking
  | waiting deadline => exact .waiting deadline
  | replying result => exact .replying result
  | unlocking h => exact .unlocking (h.mono huv)
  | done h => exact .done (h.mono huv)

/-- A request has been admitted to the session of connection `c` with the drain `q`. -/
structure Admitted (w : World) (r : Request) (c : Nat) (q : DrainRequest) : Prop where
  drains : r.opens = false
  session : w.idOf? c = some (r.header.get sessionField)
  body : decodeDrainRequest? (r.body.take maxBody) = some q

/-- The life of thread `x`, which has told `told`, taken `takes` and opened `begun`. -/
inductive Course (w : World) :
    Option Request → List (Nat × String) → List (Nat × List String) → List Nat → Thread → Prop where
  /-- A thread that serves no request. -/
  | aside {x : Thread} (h : ∀ d ∈ x.agenda, d.side = true) : Course w none [] [] [] x
  | unserved {r : Request} {x : Thread} (hagenda : x.agenda = [.serve r]) (hanswer : x.answer = {})
    (hthrown : x.thrown = none) : Course w (some r) [] [] [] x
  | refused {r : Request} {x : Thread} (hagenda : x.agenda = [])
    (hstatus : isSuccess x.answer.status = false) : Course w (some r) [] [] [] x
  | greeting {r : Request} {x : Thread} {c : Nat} {id : String} {duties : List Duty}
    (hopens : r.opens = true) (hid : w.idOf? c = some id) (hside : ∀ d ∈ duties, d.side = true)
    (hagenda : x.agenda = duties ++ [.greet c]) (hanswer : x.answer = {}) (hthrown : x.thrown = none) :
    Course w (some r) [] [] [c] x
  | greeted {r : Request} {x : Thread} {c : Nat} {id : String} (hopens : r.opens = true)
    (hid : w.idOf? c = some id) (hagenda : x.agenda = [])
    (hbody : x.answer.body = handshakeResponseBody id ∨ x.answer.body = []) :
    Course w (some r) [] [] [c] x
  | draining {r : Request} {x : Thread} {c n : Nat} {q : DrainRequest} {front rest : List String}
    {taken : List (List String)} (hadmitted : Admitted w r c q) (hmessages : q.messages = front ++ rest)
    (hthrown : x.thrown = none) (hdrain : Drain c n x.unwritable rest taken x.answer x.agenda) :
    Course w (some r) (front.map (Prod.mk c)) (taken.map (Prod.mk c)) [] x
  /-- A handler has thrown a value. -/
  | interrupted {r : Request} {x : Thread} {c : Nat} {q : DrainRequest} {front rest : List String}
    (hadmitted : Admitted w r c q) (hmessages : q.messages = front ++ rest) (hagenda : x.agenda = [])
    (hthrown : x.thrown.isSome = true) (hanswer : x.answer = {}) :
    Course w (some r) (front.map (Prod.mk c)) [] [] x

/-- A drain goes on with another agenda. -/
theorem Course.of_drain {w : World} {x : Thread} {q : DrainRequest} {back : List String} {agenda : List Duty}
    {a : Answer} (hadmitted : Admitted w r c q) (hmessages : q.messages = front ++ back) (hthrown : x.thrown = none)
    (hanswer : x.answer = a) (hdrain : Drain c n x.unwritable back taken a agenda) :
    Course w (some r) (front.map (Prod.mk c)) (taken.map (Prod.mk c)) [] { x with agenda } := by
  subst hanswer
  exact .draining hadmitted hmessages hthrown hdrain

/-- A thread that serves no request tells nobody of messages. -/
theorem Course.told_of_none {w : World} {x : Thread} (h : Course w none told takes begun x) : told = [] := by
  cases h with
  | aside => rfl

/-- A thread that has ended with success has opened a connection, or has drained one. -/
theorem Course.succeeded {w : World} {r : Request} {x : Thread} (h : Course w (some r) told takes begun x)
    (hagenda : x.agenda = []) (hthrown : x.thrown = none) (hstatus : isSuccess x.answer.status = true) :
    (r.opens = true ∧ ∃ c id, begun = [c] ∧ w.idOf? c = some id ∧
      (x.answer.body = handshakeResponseBody id ∨ x.answer.body = [])) ∨
    ∃ c q, ∃ result : Option (List String), Admitted w r c q ∧ takes = result.toList.map (Prod.mk c) ∧
      Answered x.unwritable result x.answer := by
  cases h with
  | unserved ha =>
    cases hagenda.symm.trans ha
  | refused _ hs =>
    cases hstatus.symm.trans hs
  | greeting _ _ _ ha =>
    rw [hagenda] at ha
    exact absurd ha.symm (by simp)
  | greeted hopens hid _ hbody => exact Or.inl ⟨hopens, _, _, rfl, hid, hbody⟩
  | interrupted _ _ _ ht =>
    rw [hthrown] at ht
    cases ht
  | draining hadmitted _ _ hdrain =>
    generalize x.agenda = agenda at hagenda hdrain
    generalize x.answer = answer at hdrain ⊢
    cases hdrain with
    | delivering => exact absurd hagenda (by simp)
    | done hanswered => exact Or.inr ⟨_, _, _, hadmitted, rfl, hanswered⟩
    | _ => cases hagenda

/-- Only ids matter, and the flags of the caller may change. -/
theorem Course.congr {w v : World} {x y : Thread} (h : Course w o told takes begun x)
    (hids : ∀ c id, w.idOf? c = some id → v.idOf? c = some id) (hagenda : y.agenda = x.agenda)
    (hanswer : y.answer = x.answer) (hthrown : y.thrown = x.thrown)
    (hunwritable : x.unwritable = true → y.unwritable = true) : Course v o told takes begun y := by
  have hadmits : ∀ {r c q}, Admitted w r c q → Admitted v r c q := fun ha =>
    ⟨ha.drains, hids _ _ ha.session, ha.body⟩
  cases h with
  | aside h => exact .aside (by rwa [hagenda])
  | unserved ha hb hc => exact .unserved (hagenda.trans ha) (hanswer.trans hb) (hthrown.trans hc)
  | refused ha hb => exact .refused (hagenda.trans ha) (by rwa [hanswer])
  | greeting ho hi hs ha hb hc =>
    exact .greeting ho (hids _ _ hi) hs (hagenda.trans ha) (hanswer.trans hb) (hthrown.trans hc)
  | greeted ho hi ha hb => exact .greeted ho (hids _ _ hi) (hagenda.trans ha) (by rwa [hanswer])
  | draining had hm hc hd =>
    have hd' := hd.mono hunwritable
    rw [← hagenda, ← hanswer] at hd'
    exact .draining (hadmits had) hm (hthrown.trans hc) hd'
  | interrupted had hm ha hc hb =>
    exact .interrupted (hadmits had) hm (hagenda.trans ha) (by rwa [hthrown]) (hanswer.trans hb)

/-! ## Steps -/

/-- A side duty tells of no message, takes nothing and opens nothing. -/
theorem Duty.side_facts {d : Duty} (h : d.side = true) (w v : World) (t : Nat) (x : Thread) :
    d.tells? = none ∧ w.takes? x d = none ∧ v.opened? t d = none := by
  cases d with
  | trigger event c data =>
    have hevent : ¬ event = "message" := by simpa [Duty.side] using h
    exact ⟨if_neg hevent, rfl, rfl⟩
  | react | act | send | broadcast | close | shutdown | expire => exact ⟨rfl, rfl, rfl⟩
  | _ => cases h

namespace World

/-- The world in which thread `t` has `rest` left to do. -/
def pop (w : World) (t : Nat) (rest : List Duty) : World :=
  w.updateThread t fun x => { x with agenda := rest }

variable {w : World} {t : Nat} {x : Thread} {d : Duty} {rest : List Duty}

theorem Next.step_eq (hx : w.Next t x d rest) : w.stepThread t = (w.pop t rest).discharge t x d := by
  simp only [stepThread, hx.thread, hx.agenda]
  rfl

theorem Next.step_of_takes (hx : w.Next t x d rest) {c received : Nat} {y : Conn} (hy : w.conn? c = some y)
    {r : Poll.Queue × Poll.Take} (hd : d.Takes w x y.queue c received r) :
    w.stepThread t = (w.pop t rest).taken t c received r := by
  have hy' : (w.pop t rest).conn? c = some y := hy
  rw [hx.step_eq]
  cases hd <;> simp only [discharge, hy'] <;> rfl

variable (hx : w.threads[t]? = some x)
include hx

theorem threads_pop (rest : List Duty) : (w.pop t rest).threads[t]? = some { x with agenda := rest } :=
  threads_updateThread_self hx _

theorem threads_push (duties : List Duty) :
    (w.push t duties).threads[t]? = some { x with agenda := duties ++ x.agenda } :=
  threads_updateThread_self hx _

theorem threads_respond (status : Nat) (header : Header) (body : List UInt8) :
    (w.respond t status header body).threads[t]? =
      some { x with answer := { status, header, body := if x.unwritable then [] else body } } :=
  threads_updateThread_self hx _

theorem threads_throw (value : Thrown) :
    (w.throw t value).threads[t]? = some { x with agenda := [], thrown := some value } := by
  exact threads_updateThread_self hx _

theorem threads_respondJson (body : List UInt8) : ∃ header, (w.respondJson t body).threads[t]? =
      some { x with answer := { header, body := if x.unwritable then [] else body } } := by
  refine ⟨({} : Header).set "Content-Type" jsonContent, ?_⟩
  have hresponded := threads_respond hx 200 (({} : Header).set "Content-Type" jsonContent) body
  unfold respondJson
  dsimp only
  split
  · split
    · exact hresponded
    · exact hresponded
  · exact hresponded

omit hx in
/-- A side duty plans side duties or throws. -/
theorem Next.side (hx : w.Next t x d rest) (hd : d.side = true) :
    ∃ y, (w.stepThread t).threads[t]? = some y ∧ y.answer = x.answer ∧
      y.unwritable = x.unwritable ∧
      (y.thrown = x.thrown ∧ (∃ duties, (∀ e ∈ duties, e.side = true) ∧ y.agenda = duties ++ rest) ∨
        y.thrown.isSome = true ∧ y.agenda = []) := by
  have hpop := threads_pop hx.thread rest
  rw [hx.step_eq]
  -- only an act that throws ends its thread; everything else leaves the rest of the agenda
  by_cases hthrow : ∃ number c data value, d = .act number c data (.throw value)
  · obtain ⟨number, c, data, value, rfl⟩ := hthrow
    exact ⟨_, threads_throw hpop value, rfl, rfl, Or.inr ⟨rfl, rfl⟩⟩
  · have haside := ((w.pop t rest).did_discharge t x d).aside hd fun number c data value heq =>
      hthrow ⟨number, c, data, value, heq⟩
    obtain ⟨y, hy, hpushed⟩ := haside.self _ hpop
    exact ⟨y, hy, hpushed.answer, hpushed.unwritable, Or.inl ⟨hpushed.thrown, hpushed.agenda⟩⟩

omit hx in
/-- A session that can be drained is in the table. -/
theorem lookup_of_liveSession? (h : w.liveSession? id = some c) : w.sessions.lookup id = some c := by
  unfold liveSession? at h
  split at h
  next c' _ hc _ =>
    split at h
    · split at h
      · cases h
      · rw [hc, h]
    · cases h
  next => cases h

/-- Serving a request refuses it, opens a connection or admits it to a session that is alive. -/
theorem serve_cases (r : Request) : (∃ y, (w.serve t r).threads[t]? = some y ∧ y.agenda = x.agenda ∧
      isSuccess y.answer.status = false) ∨
    (r.opens = true ∧ ∃ id, (w.serve t r).idOf? w.conns.length = some id ∧
      (w.serve t r).threads[t]? = some { x with
        agenda := [.trigger "connect" w.conns.length "", .greet w.conns.length] ++ x.agenda }) ∨
    ∃ c q, r.opens = false ∧ w.liveSession? (r.header.get sessionField) = some c ∧
      decodeDrainRequest? (r.body.take maxBody) = some q ∧ (w.serve t r).threads[t]? = some { x with
        agenda := [.lock c, .deliver c q.messages, .take c q.messages.length, .unlock c] ++
          x.agenda } := by
  have hdid := w.did_serve t x r
  generalize w.serve t r = v at hdid ⊢
  cases hdid with
  | passes hd | concludes hd | takes _ hd => cases hd
  | plans hplan hv =>
    cases hplan with
    | admits hopens hlive hq =>
      exact Or.inr (Or.inr ⟨_, _, hopens, hlive, hq, threads_push (by rw [hv.threads, hx]) _⟩)
  | refuses hstatus => exact Or.inl ⟨_, threads_respond hx _ _ _, rfl, hstatus⟩
  | opens hopens =>
    refine Or.inr (Or.inl ⟨hopens, (w.newConn r).id, ?_, threads_push hx _⟩)
    show ((w.conns ++ [w.newConn r])[w.conns.length]?).map _ = _
    rw [List.getElem?_concat_length]
    rfl

omit hx in
/-- A drain that its session admits. -/
theorem serve_drain (hupgrade : asksUpgrade r.header = false) (hmethod : r.method = "POST")
    (hopens : r.opens = false) (hlive : w.liveSession? (r.header.get sessionField) = some c)
    (hq : decodeDrainRequest? (r.body.take maxBody) = some q)
    (hsession : q.session = r.header.get sessionField) :
    w.serve t r =
      w.push t [.lock c, .deliver c q.messages, .take c q.messages.length, .unlock c] := by
  have hopens' : ¬ ((r.header.get sessionField).isEmpty || r.header.get sessionField == nullSession) =
      true := Bool.eq_false_iff.1 hopens
  unfold serve
  rw [hupgrade, hmethod, if_neg (by decide), if_neg (by decide)]
  rw [if_neg hopens']
  unfold drain
  rw [hlive]
  rw [hq]
  dsimp only
  rw [if_neg (by simp [hsession])]

/-- A take goes on to the answer or waits. -/
theorem threads_taken (c received : Nat) (r : Poll.Queue × Poll.Take) : (w.taken t c received r).threads[t]? =
      some { x with agenda := .ofTake c received r.2 :: x.agenda } := by
  rw [taken_eq]
  exact threads_push hx _

end World

section Step

variable {w : World} {t : Nat} {x : Thread} {d : Duty} {rest : List Duty}

/-- Where a step of a thread leads, with what it told, took and opened. -/
def LeadsOn (w : World) (t : Nat) (x : Thread) (d : Duty) (o : Option Request)
    (told : List (Nat × String)) (takes : List (Nat × List String)) (begun : List Nat) : Prop :=
  ∃ y, (w.stepThread t).threads[t]? = some y ∧
    Course (w.stepThread t) o (told ++ d.tells?.toList) (takes ++ (w.takes? x d).toList)
      (begun ++ ((w.stepThread t).opened? t d).toList) y

/-- A step that tells of nothing, takes nothing and opens nothing. -/
theorem LeadsOn.of_quiet {y : Thread} (htells : d.tells? = none) (htakes : w.takes? x d = none)
    (hopened : (w.stepThread t).opened? t d = none) (hy : (w.stepThread t).threads[t]? = some y)
    (h : Course (w.stepThread t) o told takes begun y) : LeadsOn w t x d o told takes begun := by
  refine ⟨y, hy, ?_⟩
  rw [htells, htakes, hopened]
  simpa using h

theorem leadsOn_of_unserved (htabled : w.Tabled) (hx : w.Next t x (.serve r) [])
    (hanswer : x.answer = {}) (hthrown : x.thrown = none) :
    LeadsOn w t x (.serve r) (some r) [] [] [] := by
  have hpop := World.threads_pop hx.thread []
  have hstep : w.stepThread t = (w.pop t []).serve t r := hx.step_eq
  have htabled' : (w.pop t []).Tabled := (World.Effect.updateThread t w _).tabled htabled
  have hids : ∀ c id, (w.pop t []).idOf? c = some id → ((w.pop t []).serve t r).idOf? c = some id :=
    ((w.pop t []).did_serve t x r).effect.ids
  rcases World.serve_cases hpop r with ⟨y, hy, hya, hstatus⟩ | ⟨hopens, id, hid, hy⟩ |
    ⟨c, q, hdrains, hlive, hq, hy⟩
  · rw [← hstep] at hy
    refine .of_quiet rfl rfl ?_ hy (.refused hya hstatus)
    unfold World.opened?
    rw [hy]
    obtain ⟨agenda, cancelled, unwritable, answer, outcome, thrown⟩ := y
    cases hya
    rfl
  · rw [← hstep] at hid hy
    refine ⟨_, hy, ?_⟩
    have hopened : (w.stepThread t).opened? t (.serve r) = some w.conns.length := by
      unfold World.opened?
      rw [hy]
      rfl
    rw [hopened]
    have hside : ∀ d ∈ [Duty.trigger "connect" w.conns.length ""], d.side = true := by
      simp [Duty.side]
    exact .greeting hopens hid hside rfl hanswer hthrown
  · rw [← hstep] at hy hids
    have hsession := htabled'.sessions _ c (World.lookup_of_liveSession? hlive)
    have hadmitted' : Admitted (w.stepThread t) r c q := ⟨hdrains, hids _ _ hsession, hq⟩
    refine .of_quiet rfl rfl ?_ hy
      (Course.of_drain hadmitted' (List.nil_append _).symm hthrown hanswer (.locking q.messages))
    unfold World.opened?
    rw [hy]
    rfl

theorem leadsOn_of_greeting (hx : w.Next t x d rest) {duties : List Duty} (hopens : r.opens = true)
    (hid : w.idOf? c = some id) (hside : ∀ d ∈ duties, d.side = true)
    (hagenda : x.agenda = duties ++ [.greet c]) (hanswer : x.answer = {}) (hthrown : x.thrown = none) :
    LeadsOn w t x d (some r) [] [] [c] := by
  have hid' : (w.stepThread t).idOf? c = some id := hx.effect.ids c id hid
  cases duties with
  | nil =>
    cases hagenda.symm.trans hx.agenda
    have hconn : ∃ y, (w.pop t []).conn? c = some y ∧ y.id = id := Option.map_eq_some_iff.1 hid
    obtain ⟨y, hy, hyid⟩ := hconn
    have hstep : w.stepThread t = (w.pop t []).respondJson t (handshakeResponseBody id) := by
      rw [hx.step_eq]
      simp only [World.discharge, hy, hyid]
    obtain ⟨header, hthread⟩ := World.threads_respondJson (World.threads_pop hx.thread [])
      (handshakeResponseBody id)
    rw [← hstep] at hthread
    refine .of_quiet rfl rfl rfl hthread (.greeted hopens hid' rfl ?_)
    split
    · exact Or.inr rfl
    · exact Or.inl rfl
  | cons e more =>
    cases hagenda.symm.trans hx.agenda
    have he := hside d List.mem_cons_self
    obtain ⟨htells, htakes, hopened⟩ := Duty.side_facts he w (w.stepThread t) t x
    obtain ⟨y, hy, hya, -, ⟨hyt, more', hmore', hy'⟩ | ⟨-, hy'⟩⟩ := hx.side he
    · have hside' : ∀ d ∈ more' ++ more, d.side = true :=
        List.forall_mem_append.2 ⟨hmore', (List.forall_mem_cons.1 hside).2⟩
      replace hy' := hy'.trans (List.append_assoc more' more _).symm
      exact .of_quiet htells htakes hopened hy
        (.greeting hopens hid' hside' hy' (hya.trans hanswer) (hyt.trans hthrown))
    · refine .of_quiet htells htakes hopened hy (.greeted hopens hid' hy' (Or.inr ?_))
      rw [hya, hanswer]

section

variable (hadmitted : Admitted (w.stepThread t) r c q)
include hadmitted

/-- A take goes on to the answer with what it brings, or waits. -/
theorem leadsOn_of_take (hx : w.Next t x d [.unlock c]) (hanswer : x.answer = {}) (hthrown : x.thrown = none)
    {y : Conn} (hy : w.conn? c = some y) {result : Poll.Queue × Poll.Take}
    (hd : d.Takes w x y.queue c n result) :
    LeadsOn w t x d (some r) (q.messages.map (Prod.mk c)) [] [] := by
  have hz := World.threads_taken (World.threads_pop hx.thread [.unlock c]) c n result
  rw [← hx.step_of_takes hy hd] at hz
  have hquiet : d.tells? = none ∧ (w.stepThread t).opened? t d = none := by cases hd <;> exact ⟨rfl, rfl⟩
  obtain ⟨htells, hopened⟩ := hquiet
  have htakes := hd.takes? hy
  have hmessages : q.messages = q.messages ++ [] := (List.append_nil _).symm
  cases hresult : result.2 with
  | done messages =>
    rw [hresult] at hz htakes
    refine ⟨_, hz, ?_⟩
    have hlist : (messages.map (Prod.mk c)).toList = messages.toList.map (Prod.mk c) := by
      cases messages <;> rfl
    rw [htells, hopened, htakes]
    simp only [result?, Option.toList_none, List.append_nil, hlist]
    exact .of_drain hadmitted hmessages hthrown hanswer (.replying messages)
  | waiting deadline =>
    rw [hresult] at hz htakes
    exact .of_quiet htells htakes hopened hz
      (Course.of_drain hadmitted hmessages hthrown hanswer (.waiting deadline))

/-- Telling of a message puts the reactions to it before what is left to do. -/
theorem leadsOn_of_tell {more : List String} {m : String}
    (hx : w.Next t x (.trigger "message" c m) [.deliver c more, .take c n, .unlock c])
    (hmessages : q.messages = front ++ m :: more) (hanswer : x.answer = {}) (hthrown : x.thrown = none) :
    LeadsOn w t x (.trigger "message" c m) (some r) (front.map (Prod.mk c)) [] [] := by
  set reactions := ((w.pop t [.deliver c more, .take c n, .unlock c]).handlers.filter
    fun h => h.event == "message").map fun h => Duty.react "message" h.reaction c m
  have hz : (w.stepThread t).threads[t]? =
      some { x with agenda := reactions ++ [.deliver c more, .take c n, .unlock c] } := by
    rw [hx.step_eq]
    exact World.threads_push (World.threads_pop hx.thread _) reactions
  have hside : ∀ d ∈ reactions, d.side = true := by
    intro d hmem
    obtain ⟨h, -, rfl⟩ := List.mem_map.1 hmem
    rfl
  have hmessages' : q.messages = (front ++ [m]) ++ more := by simp [hmessages]
  have hcourse := Course.of_drain (n := n) hadmitted hmessages' hthrown hanswer (.delivering more hside)
  rw [List.map_append] at hcourse
  exact ⟨_, hz, hcourse⟩

/-- The answer to a take that brought messages is a document of them, unless nothing can be written. -/
theorem leadsOn_of_reply {messages : List String} (hx : w.Next t x (.reply c n (some messages)) [.unlock c])
    {y : Conn} (hmessages : q.messages = front ++ []) (hthrown : x.thrown = none)
    (hy : (w.pop t [.unlock c]).conn? c = some y) :
    LeadsOn w t x (.reply c n (some messages)) (some r) (front.map (Prod.mk c))
      ([messages].map (Prod.mk c)) [] := by
  set logged := (w.pop t [.unlock c]).log .debug "drain"
    [("session", .text y.id), ("in", .number n), ("out", .number messages.length)]
  have hreply : w.stepThread t = logged.respondJson t (drainResponseBody messages) := by
    rw [hx.step_eq]
    simp only [World.discharge, World.reply, hy]
    rfl
  have hpop : logged.threads[t]? = some { x with agenda := [.unlock c] } := World.threads_pop hx.thread _
  obtain ⟨header, hz⟩ := World.threads_respondJson hpop (drainResponseBody messages)
  rw [← hreply] at hz
  have hanswered : Answered x.unwritable (some messages)
      { header, body := if x.unwritable then [] else drainResponseBody messages } := by
    refine ⟨rfl, ?_⟩
    by_cases hu : x.unwritable = true
    · exact Or.inr ⟨hu, if_pos hu⟩
    · exact Or.inl (if_neg hu)
  exact .of_quiet rfl rfl rfl hz (.draining (n := n) hadmitted hmessages hthrown (.unlocking hanswered))

/-- A reaction plans others before what is left to do, or throws a value. -/
theorem leadsOn_of_reaction {back : List String} {duties : List Duty}
    (hx : w.Next t x d (duties ++ [.deliver c back, .take c n, .unlock c])) (hmessages : q.messages = front ++ back)
    (hanswer : x.answer = {}) (hthrown : x.thrown = none) (hside : ∀ e ∈ d :: duties, e.side = true) :
    LeadsOn w t x d (some r) (front.map (Prod.mk c)) [] [] := by
  have hd := hside d List.mem_cons_self
  obtain ⟨htells, htakes, hopened⟩ := Duty.side_facts hd w (w.stepThread t) t x
  obtain ⟨z, hz, hza, -, ⟨hzt, more, hmore, hz'⟩ | ⟨hzt, hz'⟩⟩ := hx.side hd
  · have hside' : ∀ e ∈ more ++ duties, e.side = true :=
      List.forall_mem_append.2 ⟨hmore, (List.forall_mem_cons.1 hside).2⟩
    have hdrain : Drain c n z.unwritable back [] z.answer z.agenda := by
      rw [hz', ← List.append_assoc, hza, hanswer]
      exact .delivering back hside'
    exact .of_quiet htells htakes hopened hz (.draining hadmitted hmessages (hzt.trans hthrown) hdrain)
  · exact .of_quiet htells htakes hopened hz (.interrupted hadmitted hmessages hz' hzt (hza.trans hanswer))

end

theorem leadsOn_of_draining (hx : w.Next t x d rest) {back : List String} (hadmitted : Admitted w r c q)
    (hmessages : q.messages = front ++ back) (hthrown : x.thrown = none)
    (hdrain : Drain c n x.unwritable back taken x.answer x.agenda) :
    LeadsOn w t x d (some r) (front.map (Prod.mk c)) (taken.map (Prod.mk c)) [] := by
  have hadmitted' : Admitted (w.stepThread t) r c q :=
    ⟨hadmitted.drains, hx.effect.ids _ _ hadmitted.session, hadmitted.body⟩
  have hpop := World.threads_pop hx.thread rest
  have hstep := hx.step_eq
  obtain ⟨y, hy⟩ : ∃ y, (w.pop t rest).conn? c = some y := by
    obtain ⟨y, hy, -⟩ := Option.map_eq_some_iff.1 hadmitted.session
    exact ⟨y, hy⟩
  -- agenda and answer are made variables: they are indices of the stage
  rw [hx.agenda] at hdrain
  generalize hagenda : d :: rest = agenda at hdrain
  generalize hanswer : x.answer = answer at hdrain
  have hnone : ∀ e ∈ ([] : List Duty), e.side = true := by simp
  cases hdrain with
  | locking =>
    cases hagenda
    exact .of_quiet rfl rfl rfl (by rw [hstep]; exact hpop)
      (Course.of_drain hadmitted' hmessages hthrown hanswer (.delivering back hnone))
  | @delivering _ duties hside =>
    cases duties with
    | nil =>
      cases hagenda
      cases back with
      | nil =>
        exact .of_quiet rfl rfl rfl (by rw [hstep]; exact hpop)
          (Course.of_drain hadmitted' hmessages hthrown hanswer .taking)
      | cons m more =>
        exact .of_quiet rfl rfl rfl (by rw [hstep]; exact World.threads_push hpop _)
          (Course.of_drain hadmitted' hmessages hthrown hanswer (.telling m more))
    | cons e more =>
      cases hagenda
      exact leadsOn_of_reaction hadmitted' hx hmessages hanswer hthrown hside
  | telling m more =>
    cases hagenda
    exact leadsOn_of_tell hadmitted' hx hmessages hanswer hthrown
  | taking =>
    cases hagenda
    rw [List.append_nil] at hmessages
    rw [← hmessages]
    exact leadsOn_of_take hadmitted' hx hanswer hthrown hy .starts
  | waiting deadline =>
    cases hagenda
    rw [List.append_nil] at hmessages
    rw [← hmessages]
    exact leadsOn_of_take hadmitted' hx hanswer hthrown hy (.resumes deadline)
  | replying result =>
    cases hagenda
    cases result with
    | none =>
      have hz : (w.stepThread t).threads[t]? = some { x with agenda := [.unlock c] } := by
        rw [hstep]
        simp only [World.discharge, World.reply, hy]
        exact hpop
      exact .of_quiet rfl rfl rfl hz
        (Course.of_drain (n := n) hadmitted' hmessages hthrown hanswer (.unlocking ⟨rfl, rfl⟩))
    | some messages => exact leadsOn_of_reply hadmitted' hx hmessages hthrown hy
  | unlocking hanswered =>
    cases hagenda
    exact .of_quiet rfl rfl rfl (by rw [hstep]; exact hpop)
      (Course.of_drain (n := n) hadmitted' hmessages hthrown hanswer (.done hanswered))
  | done hanswered => cases hagenda

/-- A step of a thread leads on in its course. -/
theorem course_step (htabled : w.Tabled) (hx : w.Next t x d rest)
    (h : Course w o told takes begun x) : LeadsOn w t x d o told takes begun := by
  cases h with
  | aside hside =>
    have hdside := hside d (hx.agenda ▸ List.mem_cons_self)
    obtain ⟨htells, htakes, hopened⟩ := Duty.side_facts hdside w (w.stepThread t) t x
    obtain ⟨y, hy, -, -, ⟨-, duties, hduties, hya⟩ | ⟨-, hya⟩⟩ := hx.side hdside
    · refine .of_quiet htells htakes hopened hy (.aside fun e he => ?_)
      rw [hya] at he
      rcases List.mem_append.1 he with he | he
      · exact hduties e he
      · exact hside e (hx.agenda ▸ List.mem_cons_of_mem d he)
    · exact .of_quiet htells htakes hopened hy (.aside (by simp [hya]))
  | unserved hagenda hanswer hthrown =>
    cases hagenda.symm.trans hx.agenda
    exact leadsOn_of_unserved htabled hx hanswer hthrown
  | greeting hopens hid hside hagenda hanswer hthrown =>
    exact leadsOn_of_greeting hx hopens hid hside hagenda hanswer hthrown
  | draining hadmitted hmessages hthrown hdrain =>
    exact leadsOn_of_draining hx hadmitted hmessages hthrown hdrain
  | refused hagenda | greeted _ _ hagenda | interrupted _ _ hagenda =>
    cases hagenda.symm.trans hx.agenda

end Step

end PollSocket.Server
