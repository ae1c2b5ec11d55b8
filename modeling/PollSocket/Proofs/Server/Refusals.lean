import PollSocket.Proofs.Server.Lapse
import PollSocket.Proofs.Server.Trail

set_option autoImplicit false

/-!
# Requests that are refused

`World.Verdict` says which status a request is answered with, by what the server holds when it serves the
request. A refusal changes the thread of the request and the limiter only, and it is final. A request that is
accepted is answered with success, and a drain tells the handlers of nothing but its own messages, for the
session that its header names (`refusals_change_nothing`).
-/

namespace PollSocket.Server

variable {h : History} {o : Option Nat} {r : Request} {x : Thread}

namespace World

/-- The status of the answer to a request that asks for no upgrade. -/
structure Verdict (w : World) (r : Request) (status : Nat) : Prop where
  known : status ∈ [200, 400, 404, 405, 429]
  method : status = 405 ↔ r.method ≠ "POST"
  /-- Handshakes are refused by the limiter, if there is one. -/
  limit : status = 429 ↔ r.method = "POST" ∧ r.opens = true ∧
    ∃ l, w.limiter = some l ∧ (l.allow w.now).2 = false
  /-- Drains are refused if their session is not in the table, or has lapsed. -/
  session : status = 404 ↔ r.method = "POST" ∧ r.opens = false ∧
    ∀ c, w.sessions.lookup (r.header.get sessionField) = some c → w.lapsed c = true
  /-- A drain has to be one, and must not name another session in its body. -/
  body : status = 400 ↔ r.method = "POST" ∧ r.opens = false ∧
    (∃ c, w.sessions.lookup (r.header.get sessionField) = some c ∧ w.lapsed c = false) ∧
    ∀ q, decodeDrainRequest? (r.body.take maxBody) = some q →
      q.session ≠ "" ∧ q.session ≠ r.header.get sessionField

variable {w : World} {t : Nat} {d : Duty} {rest : List Duty}

/-! ## Sessions -/

/-- A session is found unless it is not in the table or has lapsed. -/
theorem liveSession?_eq_none_iff (htabled : w.Tabled) (hpaired : w.Paired) {id : String} :
    w.liveSession? id = none ↔ ∀ c, w.sessions.lookup id = some c → w.lapsed c = true := by
  unfold liveSession?
  rw [← hpaired.tables]
  cases hlookup : w.sessions.lookup id with
  | none => simp
  | some c =>
    obtain ⟨y, hy, -⟩ := Option.map_eq_some_iff.1 (htabled.sessions id c hlookup)
    simp [hy, lapsed]

theorem Paired.after (hp : h.world.Paired) (m : Move) : (h.after m).world.Paired := by
  obtain hsteady | ⟨_, _, _, _, _, -, -, -, -, hdoes⟩ := (h.turns_after m).steady_or_does
  · exact hp.of_steady hsteady
  · exact hp.step hdoes

theorem Paired.run (settings : Settings) (limiter : Option Limiter) (ids : Ids) (moves : List Move) :
    (History.run settings limiter ids moves).world.Paired :=
  World.run_induction ⟨rfl, List.nodup_nil⟩ .of_steady (fun hp => hp.step) moves

/-! ## Threads that have served -/

/-- The request that a thread is still to serve. -/
def serving? (w : World) (t : Nat) : Option Request :=
  match w.agenda t with
  | [.serve r] => some r
  | _ => none

theorem agenda_of_serving (h : w.serving? t = some r) :
    ∃ x, w.Next t x (.serve r) [] := by
  unfold serving? at h
  split at h
  next r' hagenda =>
    cases h
    exact next_of_agenda hagenda
  next => cases h

end World

/-- A thread whose request was accepted: it answers with success and drains no session but `o`. -/
structure Thread.Served (x : Thread) (o : Option Nat) : Prop where
  status : x.answer.status = 200
  duties : ∀ e ∈ x.agenda, e.isServe = false ∧ ∀ c, e.session? = some c → o = some c

namespace History

variable {t : Nat}

/-- Thread `t` is done with its request, which was refused with this status, or accepted. -/
inductive Judged (h : History) (t : Nat) (o : Option Nat) (status : Nat) (x : Thread) : Prop
  | refused (hx : h.world.threads[t]? = some x) (hagenda : x.agenda = []) (hstatus : x.answer.status = status)
    (htold : h.toldBy t = [])
  | accepted (hx : h.world.threads[t]? = some x) (hserved : x.Served o) (hstatus : status = 200)
    (htold : ∀ e ∈ h.toldBy t, o = some e.1)

theorem Judged.status {status : Nat} (hj : h.Judged t o status x) :
    h.world.threads[t]? = some x ∧ x.answer.status = status := by
  cases hj with
  | refused hx _ hstatus => exact ⟨hx, hstatus⟩
  | accepted hx hserved hstatus => exact ⟨hx, hserved.status.trans hstatus.symm⟩

theorem Judged.told {status : Nat} (hj : h.Judged t o status x) : ∀ e ∈ h.toldBy t, o = some e.1 := by
  cases hj with
  | refused _ _ _ htold => simp [htold]
  | accepted _ _ _ htold => exact htold

/-- A thread tells of messages only by a step of its own. -/
theorem toldBy_after (h : History) (m : Move) (t : Nat) : (h.after m).toldBy t = h.toldBy t ∨
    ∃ c data x rest, h.world.Next t x (.trigger "message" c data) rest ∧
      (h.after m).toldBy t = h.toldBy t ++ [(c, data)] := by
  rcases h.told_after m with hsame | ⟨u, c, data, x, rest, -, hx, htold⟩
  · exact Or.inl (by rw [Books.toldBy, hsame, Books.toldBy])
  · have hentries : (h.after m).toldBy t = h.toldBy t ++ if u = t then [(c, data)] else [] := by
      rw [Books.toldBy, htold, entriesOf_append, entriesOf_singleton, Books.toldBy]
    by_cases hut : u = t
    · subst hut
      exact Or.inr ⟨c, data, x, rest, hx, by rw [hentries, if_pos rfl]⟩
    · exact Or.inl (by rw [hentries, if_neg hut, List.append_nil])

/-- What is decided about a request stays so. -/
theorem Judged.after {status : Nat} (hj : h.Judged t o status x) (m : Move) :
    ∃ y, (h.after m).Judged t o status y := by
  cases hj with
  | refused hx hagenda hstatus htold =>
    obtain ⟨y, hy, hlist, hstays⟩ := h.finished_after hx hagenda m
    refine ⟨y, .refused hy hlist (by rw [hstays.answer, hstatus]) ?_⟩
    rcases h.toldBy_after m t with hsame | ⟨c, data, x', rest, hx', -⟩
    · rw [hsame, htold]
    · cases ((World.agenda_of_some hx).trans hagenda).symm.trans hx'.agenda_eq
  | accepted hx hserved hstatus htold =>
    have htold' : ∀ e ∈ (h.after m).toldBy t, o = some e.1 := by
      rcases h.toldBy_after m t with hsame | ⟨c, data, x', rest, hx', hmore⟩
      · rwa [hsame]
      · cases hx.symm.trans hx'.thread
        intro e he
        rw [hmore, List.mem_append, List.mem_singleton] at he
        rcases he with he | rfl
        · exact htold e he
        · exact (hserved.duties _ (hx'.agenda ▸ List.mem_cons_self)).2 c rfl
    rcases h.thread_after hx m with ⟨y, hy, hstays⟩ | ⟨d, rest, hagenda, hworld⟩
    · refine ⟨y, .accepted hy ⟨by rw [hstays.answer, hserved.status], fun e he => ?_⟩ hstatus htold'⟩
      rcases hstays.agenda with hsame | ⟨-, d, hside, hmore⟩
      · exact hserved.duties e (hsame ▸ he)
      · rw [hmore] at he
        rcases List.mem_cons.1 he with rfl | he
        · exact ⟨Duty.isServe_of_side hside, by simp [Duty.session?_of_side hside]⟩
        · exact hserved.duties e he
    · have hd : d ∈ x.agenda := hagenda ▸ List.mem_cons_self
      have hserve : ∀ r, d ≠ .serve r := by
        rintro r rfl
        cases (hserved.duties _ hd).1
      obtain ⟨y, hy, hremains⟩ := World.Next.duty ⟨hx, hagenda⟩ hserve
      refine ⟨y, .accepted (hworld ▸ hy) ⟨?_, fun e he => ?_⟩ hstatus htold'⟩
      · exact hremains.status.elim (fun hsame => hsame.trans hserved.status) id
      · rcases hremains.duties e he with hrest | ⟨hnot, hsession⟩
        · exact hserved.duties e (hagenda ▸ List.mem_cons_of_mem d hrest)
        · exact ⟨hnot, fun c hc => (hserved.duties d hd).2 c (hsession c hc)⟩

theorem Judged.foldl {status : Nat} (hj : h.Judged t o status x) (moves : List Move) :
    ∃ y, (moves.foldl History.after h).Judged t o status y := by
  induction moves generalizing h x with
  | nil => exact ⟨x, hj⟩
  | cons m more ih =>
    obtain ⟨y, hy⟩ := hj.after m
    exact ih hy

end History

/-! ## Serving a request -/

namespace World

variable {w : World} {t : Nat}

theorem refuse_pop (hx : w.threads[t]? = some x) (status : Nat) (header : Header) (text : String) :
    ∃ y, y.agenda = [] ∧ y.answer.status = status ∧
      (w.pop t []).refuse t status header text = { w with threads := w.threads.set t y } := by
  set full := (header.set "Content-Type" "text/plain; charset=utf-8").set "X-Content-Type-Options" "nosniff"
  set body := Text.encode (text ++ "\n")
  refine ⟨{ x with agenda := [], answer := ⟨status, full, if x.unwritable then [] else body⟩ }, rfl, rfl, ?_⟩
  have hthreads : ((w.pop t []).refuse t status header text).threads =
      w.threads.set t { x with agenda := [], answer := ⟨status, full, if x.unwritable then [] else body⟩ } := by
    refine List.ext_getElem? fun u => ?_
    rw [List.getElem?_set]
    by_cases hut : u = t
    · subst hut
      have hlt := (List.getElem?_eq_some_iff.1 hx).1
      rw [if_pos rfl, if_pos hlt]
      exact threads_respond (threads_pop hx []) status full body
    · rw [if_neg fun heq => hut heq.symm]
      show ((w.pop t []).updateThread t _).threads[u]? = _
      rw [threads_updateThread, if_neg hut, pop, threads_updateThread, if_neg hut]
  rw [← hthreads]
  rfl

/-- What serving request `r` does: it is refused, which changes its thread and the limiter only, or it opens a
connection, or is admitted to its session. -/
inductive Serves (w : World) (t : Nat) (r : Request) (v : World) (y : Thread) : Nat → Prop
  | refuses {status : Nat} (hrefused : status ≠ 200) (hagenda : y.agenda = []) (hstatus : y.answer.status = status)
    (hv : v = { w with threads := w.threads.set t y, limiter := v.limiter })
    (hlimiter : status ≠ 429 → v.limiter = w.limiter) : w.Serves t r v y status
  | opens (hopens : r.opens = true) (hserved : y.Served none) : w.Serves t r v y 200
  | admits {c : Nat} {q : DrainRequest} (hopens : r.opens = false)
    (hlookup : w.sessions.lookup (r.header.get sessionField) = some c) (hlive : w.lapsed c = false)
    (hbody : decodeDrainRequest? (r.body.take maxBody) = some q)
    (hsession : q.session = "" ∨ q.session = r.header.get sessionField) (hserved : y.Served (some c)) :
    w.Serves t r v y 200

/-- Serving request `r` leads to `v`, and gives it the status that the verdict says. -/
def Judges (w : World) (t : Nat) (r : Request) (v : World) : Prop :=
  ∃ y status, v.threads[t]? = some y ∧ w.Verdict r status ∧ w.Serves t r v y status

/-- A refusal that leaves the limiter as it is. -/
theorem Judges.of_refuse (hx : w.threads[t]? = some x) {status : Nat} {header : Header} {text : String}
    (hstatus : status ≠ 200) {v : World} (hv : v = (w.pop t []).refuse t status header text)
    (hverdict : w.Verdict r status) : w.Judges t r v := by
  obtain ⟨y, hy, hys, heq⟩ := refuse_pop hx status header text
  rw [hv, heq]
  exact ⟨y, status, List.getElem?_set_self (List.getElem?_eq_some_iff.1 hx).1, hverdict,
    .refuses hstatus hy hys rfl fun _ => rfl⟩

theorem serves_handshake (hx : w.threads[t]? = some x) (hanswer : x.answer = {}) (hmethod : r.method = "POST")
    (hopens : r.opens = true) : w.Judges t r ((w.pop t []).handshake t r) := by
  have hopened : ∀ {v : World}, v.threads[t]? = some { x with
      agenda := [.trigger "connect" w.conns.length "", .greet w.conns.length] } →
      (∀ l, w.limiter = some l → (l.allow w.now).2 = true) → w.Judges t r v := by
    intro v hv hadmits
    refine ⟨_, 200, hv, ⟨by decide, by simp [hmethod], ?_, by simp [hopens], by simp [hopens]⟩,
      .opens hopens ?_⟩
    · simpa [hmethod, hopens] using hadmits
    · exact ⟨by rw [hanswer], by simp [Duty.isServe, Duty.session?]⟩
  cases hlimiter : w.limiter with
  | none =>
    have hlimiter' : (w.pop t []).limiter = none := hlimiter
    simp only [handshake, hlimiter']
    exact hopened (threads_push (threads_pop hx []) _) (by simp [hlimiter])
  | some l =>
    have hlimiter' : (w.pop t []).limiter = some l := hlimiter
    simp only [handshake, hlimiter']
    cases hadmits : (l.allow (w.pop t []).now).2 with
    | true =>
      refine hopened (threads_push (threads_pop hx []) _) fun l' hl' => ?_
      cases hlimiter.symm.trans hl'
      exact hadmits
    | false =>
      have hrefuses : (l.allow w.now).2 = false := hadmits
      -- the limiter is asked first
      set u : World := { w with limiter := some (l.allow w.now).1 }
      obtain ⟨y, hy, hys, heq⟩ := refuse_pop (w := u) hx 429 {} "too many handshakes"
      refine ⟨y, 429, ?_, ⟨by decide, by simp [hmethod], ?_, by simp [hopens], by simp [hopens]⟩, ?_⟩
      · show ((u.pop t []).refuse t 429 {} "too many handshakes").threads[t]? = some y
        rw [heq]
        exact List.getElem?_set_self (List.getElem?_eq_some_iff.1 hx).1
      · simpa [hmethod, hopens, hlimiter] using hrefuses
      · show w.Serves t r ((u.pop t []).refuse t 429 {} "too many handshakes") y 429
        rw [heq]
        exact .refuses (by decide) hy hys rfl fun hne => absurd rfl hne

theorem serves_drain (htabled : w.Tabled) (hpaired : w.Paired) (hx : w.threads[t]? = some x)
    (hanswer : x.answer = {}) (hmethod : r.method = "POST") (hopens : r.opens = false) :
    w.Judges t r ((w.pop t []).drain t (r.header.get sessionField) r.body) := by
  have hnoLimit : ∀ {status : Nat}, status ≠ 429 → (status = 429 ↔ r.method = "POST" ∧ r.opens = true ∧
      ∃ l, w.limiter = some l ∧ (l.allow w.now).2 = false) := by
    intro status hne
    simp [hne, hopens]
  cases hlive : w.liveSession? (r.header.get sessionField) with
  | none =>
    have hnone := (liveSession?_eq_none_iff htabled hpaired).1 hlive
    have hdrain : (w.pop t []).drain t (r.header.get sessionField) r.body =
        (w.pop t []).refuse t 404 {} "session not found" := by
      have hlive' : (w.pop t []).liveSession? (r.header.get sessionField) = none := hlive
      simp only [drain, hlive']
    refine .of_refuse hx (by decide) hdrain ⟨by decide, by simp [hmethod], hnoLimit (by decide), ?_, ?_⟩
    · simpa [hmethod, hopens] using hnone
    · simp only [Nat.reduceEqDiff, false_iff]
      rintro ⟨-, -, ⟨c, hc, hlapsed⟩, -⟩
      rw [hnone c hc] at hlapsed
      cases hlapsed
  | some c =>
    have hlookup := lookup_of_liveSession? hlive
    have hlapsed := not_lapsed_of_liveSession? hlive
    have hlive' : (w.pop t []).liveSession? (r.header.get sessionField) = some c := hlive
    have hfound : ∀ {status : Nat}, status ≠ 404 → (status = 404 ↔ r.method = "POST" ∧ r.opens = false ∧
        ∀ c, w.sessions.lookup (r.header.get sessionField) = some c → w.lapsed c = true) := by
      intro status hne
      refine ⟨fun heq => absurd heq hne, fun hall => ?_⟩
      rw [hall.2.2 c hlookup] at hlapsed
      cases hlapsed
    -- the body is refused
    have hrefused : ∀ (text : String), (∀ q, decodeDrainRequest? (r.body.take maxBody) = some q →
          q.session ≠ "" ∧ q.session ≠ r.header.get sessionField) →
        (w.pop t []).drain t (r.header.get sessionField) r.body = (w.pop t []).refuse t 400 {} text →
        w.Judges t r ((w.pop t []).drain t (r.header.get sessionField) r.body) := by
      intro text hbody hdrain
      refine .of_refuse hx (by decide) hdrain
        ⟨by decide, by simp [hmethod], hnoLimit (by decide), hfound (by decide), ?_⟩
      exact ⟨fun _ => ⟨hmethod, hopens, ⟨c, hlookup, hlapsed⟩, hbody⟩, fun _ => rfl⟩
    cases hbody : decodeDrainRequest? (r.body.take maxBody) with
    | none =>
      refine hrefused "malformed drain: <json>" (by simp [hbody]) ?_
      simp only [drain, hlive', hbody]
    | some q =>
      by_cases hsession : q.session ≠ "" ∧ q.session ≠ r.header.get sessionField
      · refine hrefused "session mismatch" ?_ ?_
        · rintro q' hq'
          rw [hbody, Option.some.injEq] at hq'
          exact hq' ▸ hsession
        · simp only [drain, hlive', hbody]
          exact if_pos (by simpa using hsession)
      · have hsame : q.session = "" ∨ q.session = r.header.get sessionField := by
          by_contra hnot
          exact hsession (not_or.1 hnot)
        have hdrain : (w.pop t []).drain t (r.header.get sessionField) r.body = (w.pop t []).push t
            [.lock c, .deliver c q.messages, .take c q.messages.length, .unlock c] := by
          simp only [drain, hlive', hbody]
          exact if_neg (by simpa using hsession)
        rw [hdrain]
        refine ⟨_, 200, threads_push (threads_pop hx []) _,
          ⟨by decide, by simp [hmethod], hnoLimit (by decide), hfound (by decide), ?_⟩,
          .admits hopens hlookup hlapsed hbody hsame ?_⟩
        · simp only [Nat.reduceEqDiff, false_iff]
          exact fun hall => hsession (hall.2.2.2 q hbody)
        · exact ⟨by rw [hanswer], by simp [Duty.isServe, Duty.session?]⟩

/-- Serving a request gives it the status that the verdict says. -/
theorem serves_step (htabled : w.Tabled) (hpaired : w.Paired) (hx : w.Next t x (.serve r) [])
    (hanswer : x.answer = {}) (hupgrade : asksUpgrade r.header = false) : w.Judges t r (w.stepThread t) := by
  have hstep : w.stepThread t = (w.pop t []).serve t r := hx.step_eq
  by_cases hmethod : r.method = "POST"
  · have hserve : (w.pop t []).serve t r = if r.opens = true then (w.pop t []).handshake t r
        else (w.pop t []).drain t (r.header.get sessionField) r.body := by
      rw [serve, hupgrade, if_neg (by decide), if_neg (by simp [hmethod])]
      rfl
    rw [hstep, hserve]
    cases hopens : r.opens with
    | true => exact serves_handshake hx.thread hanswer hmethod hopens
    | false => exact serves_drain htabled hpaired hx.thread hanswer hmethod hopens
  · have hserve : (w.pop t []).serve t r =
        (w.pop t []).refuse t 405 (({} : Header).set "Allow" "POST") "method not allowed" := by
      rw [serve, hupgrade, if_neg (by decide), if_pos (by simpa using hmethod)]
    exact .of_refuse hx.thread (by decide) (hstep.trans hserve)
      ⟨by decide, by simp [hmethod], by simp [hmethod], by simp [hmethod], by simp [hmethod]⟩

end World

/-- A step that serves a request and ends its thread leaves the books as they are. -/
theorem History.after_serve {t : Nat} {y : Thread} (hx : h.world.Next t x (.serve r) [])
    (hy : (h.world.stepThread t).threads[t]? = some y)
    (hend : y.agenda = []) : h.after (.step t) = { h with world := h.world.stepThread t } := by
  have hopened : (h.world.stepThread t).opened? t (.serve r) = none := by
    unfold World.opened?
    rw [hy]
    obtain ⟨agenda, cancelled, unwritable, answer, outcome, thrown⟩ := y
    cases hend
    rfl
  have hbooks : h.enter h.world (h.world.stepThread t) t x (.serve r) = h.toBooks := by
    simp [Books.enter, hopened, Duty.tells?, World.sends?, World.takes?]
  rw [after_step_eq (hx.ready rfl rfl) hx, hbooks]

theorem History.origins_foldl (h : History) (moves : List Move) {t : Nat} {o : Option Request}
    (ho : h.origins[t]? = some o) : (moves.foldl History.after h).origins[t]? = some o := by
  induction moves generalizing h with
  | nil => exact ho
  | cons m more ih =>
    obtain ⟨news, horigins, -⟩ := h.origins_after m
    apply ih
    rw [horigins, List.getElem?_append_left (List.getElem?_eq_some_iff.1 ho).1, ho]

/-- What a thread has told is a part of the messages of its request. -/
theorem Course.told_of_body {w : World} {told : List (Nat × String)} {takes : List (Nat × List String)}
    {begun : List Nat} {q : DrainRequest} (h : Course w (some r) told takes begun x)
    (hbody : decodeDrainRequest? (r.body.take maxBody) = some q) :
    ∃ c n, told = (q.messages.take n).map (Prod.mk c) := by
  cases h with
  | @draining _ _ c _ q' front _ _ hadmitted hmessages | @interrupted _ _ c q' front _ hadmitted hmessages =>
    cases hadmitted.body.symm.trans hbody
    exact ⟨c, front.length, by rw [hmessages, List.take_left]⟩
  | _ => exact ⟨0, 0, rfl⟩

/-- A request that asks for no upgrade is answered as the verdict says, by what the server holds when it serves
the request. A refusal leaves all as it is, but for the thread of the request and the state of the limiter, which
only a handshake asks. What a drain tells the handlers of are its own messages in order, for the session that its
header names. -/
theorem refusals_change_nothing (settings : Settings) (limiter : Option Limiter) (ids : Ids)
    (front back : List Move) (t : Nat) (r : Request) :
    let h := History.run settings limiter ids front
    let k := h.after (.step t)
    let l := History.run settings limiter ids (front ++ .step t :: back)
    h.world.serving? t = some r → asksUpgrade r.header = false →
    ∃ x, l.world.threads[t]? = some x ∧ h.world.Verdict r x.answer.status ∧
      (x.answer.status ≠ 200 → x.agenda = [] ∧ l.toldBy t = [] ∧
        (∃ y, k = { h with world := { h.world with
          threads := h.world.threads.set t y, limiter := k.world.limiter } }) ∧
        (x.answer.status ≠ 429 → k.world.limiter = h.world.limiter)) ∧
      (x.answer.status = 200 → r.opens = false → ∃ c q n,
        h.world.sessions.lookup (r.header.get sessionField) = some c ∧ h.world.lapsed c = false ∧
        decodeDrainRequest? (r.body.take maxBody) = some q ∧
        (q.session = "" ∨ q.session = r.header.get sessionField) ∧
        l.toldBy t = (q.messages.take n).map (Prod.mk c)) := by
  intro h k l hserving hupgrade
  have hs : Sound h.toBooks h.world := .run settings limiter ids front
  have hl : l = back.foldl History.after k := History.run_append settings limiter ids front (.step t :: back)
  obtain ⟨x, hx⟩ := World.agenda_of_serving hserving
  obtain ⟨o, ho, hcourse⟩ := hs.courses t x hx.thread
  obtain ⟨rfl, htold, -, hanswer⟩ := hcourse.of_serve (by rw [hx.agenda]; exact List.mem_singleton_self _)
  obtain ⟨y, status, hy, hverdict, hserves⟩ :=
    World.serves_step hs.tabled (.run settings limiter ids front) hx hanswer hupgrade
  have hk : k.world = h.world.stepThread t := History.world_after_step (hx.ready rfl rfl)
  have htold' : k.toldBy t = [] := by
    rcases h.toldBy_after (.step t) t with hsame | ⟨c, data, x', rest, hx', -⟩
    · exact hsame.trans htold
    · cases hx.agenda_eq.symm.trans hx'.agenda_eq
  have horigin : l.origins[t]? = some (some r) := by
    rw [hl]
    exact k.origins_foldl back ((h.origins_foldl [.step t]) ho)
  have hy' : k.world.threads[t]? = some y := by rw [hk, hy]
  cases hserves with
  | refuses hrefused hend hstatus hv hlimiter =>
    obtain ⟨z, hz⟩ := History.Judged.foldl (.refused (o := none) hy' hend hstatus htold') back
    rw [← hl] at hz
    obtain ⟨hzx, hzs⟩ := hz.status
    refine ⟨z, hzx, by rwa [hzs], fun _ => ?_, fun hok => absurd (hzs.symm.trans hok) hrefused⟩
    cases hz with
    | accepted _ _ hok => exact absurd hok hrefused
    | refused _ hza _ hzt =>
      refine ⟨hza, hzt, ⟨y, ?_⟩, fun hne => ?_⟩
      · have hafter : k = { h with world := h.world.stepThread t } := History.after_serve hx hy hend
        rw [hafter]
        rw [← hv]
      · rw [hk]
        exact hlimiter (hzs ▸ hne)
  | opens hopens hserved =>
    have hjudged : k.Judged t none 200 y := .accepted hy' hserved rfl (by simp [htold'])
    obtain ⟨z, hz⟩ := hjudged.foldl back
    rw [← hl] at hz
    obtain ⟨hzx, hzs⟩ := hz.status
    refine ⟨z, hzx, by rwa [hzs], fun hne => absurd hzs hne, fun _ hdrains => ?_⟩
    cases hopens.symm.trans hdrains
  | @admits c q hopens hlookup hlive hbody hsession hserved =>
    have hjudged : k.Judged t (some c) 200 y := .accepted hy' hserved rfl (by simp [htold'])
    obtain ⟨z, hz⟩ := hjudged.foldl back
    rw [← hl] at hz
    obtain ⟨hzx, hzs⟩ := hz.status
    refine ⟨z, hzx, by rwa [hzs], fun hne => absurd hzs hne, fun _ _ => ?_⟩
    have hs' : Sound l.toBooks l.world := .run settings limiter ids _
    obtain ⟨o', ho', hcourse'⟩ := hs'.courses t z hzx
    cases horigin.symm.trans ho'
    obtain ⟨c', n, hparts⟩ := hcourse'.told_of_body hbody
    refine ⟨c, q, n, hlookup, hlive, hbody, hsession, ?_⟩
    have hsame : ∀ m ∈ q.messages.take n, c' = c := by
      intro m hm
      have hmem : (c', m) ∈ l.toldBy t := hparts ▸ List.mem_map_of_mem hm
      exact (Option.some.inj (hz.told _ hmem)).symm
    rw [hparts]
    exact List.map_congr_left fun m hm => by rw [hsame m hm]

/-- A drain that names the first session in its header and another one in its body. -/
def impostor : Request :=
  { method := "POST"
    header := ({} : Header).set sessionField (Ids.draw {}).1
    body := DrainRequest.body ⟨"another", defaultProtocol, ["x"]⟩ }

/-- A session is opened, and two drains that name it come in. -/
def twoDrains : List Move :=
  .request Chronicle.opening :: Watch.steps 0 3 ++ [.request impostor, .request (Chronicle.batch ["a", "b"])]

theorem refusals_change_nothing_twoDrains :
    let h := History.run {} none {} twoDrains
    let k := h.after (.step 1)
    let l := History.run {} none {} (twoDrains ++ .step 1 :: Watch.steps 2 9)
    let l' := History.run {} none {} (twoDrains ++ .step 2 :: Watch.steps 2 9)
    (∃ x y, l.world.threads[1]? = some x ∧ x.answer.status = 400 ∧ l.toldBy 1 = [] ∧
      k = { h with world := { h.world with threads := h.world.threads.set 1 y } }) ∧
    ∃ x n, l'.world.threads[2]? = some x ∧ x.answer.status = 200 ∧
      l'.toldBy 2 = (["a", "b"].take n).map (Prod.mk 0) := by
  have hrun :
      let h := History.run {} none {} twoDrains
      let id := (Ids.draw {}).1
      h.world.sessions.lookup id = some 0 ∧ h.world.lapsed 0 = false ∧
        ((h.world.serving? 1).any fun r => r.names id && !r.opens &&
          (decodeDrainRequest? (r.body.take maxBody)).any fun q => q.session != "" && q.session != id) = true ∧
        ((h.world.serving? 2).any fun r => r.names id && !r.opens &&
          (decodeDrainRequest? (r.body.take maxBody)).any fun q =>
            q.session == id && q.messages == ["a", "b"]) = true := by
    decide +kernel
  have hrefused := refusals_change_nothing {} none {} twoDrains (Watch.steps 2 9) 1
  have haccepted := refusals_change_nothing {} none {} twoDrains (Watch.steps 2 9) 2
  -- from here on only these facts about the runs matter
  generalize History.run {} none {} (twoDrains ++ .step 1 :: Watch.steps 2 9) = l at hrefused ⊢
  generalize History.run {} none {} (twoDrains ++ .step 2 :: Watch.steps 2 9) = l' at haccepted ⊢
  generalize History.run {} none {} twoDrains = h at hrun hrefused haccepted ⊢
  obtain ⟨hlookup, hlive, hserving, hserving'⟩ := hrun
  obtain ⟨r, hr, hfacts⟩ := (Option.any_eq_true _ _).1 hserving
  obtain ⟨r', hr', hfacts'⟩ := (Option.any_eq_true _ _).1 hserving'
  simp only [Request.names, Bool.and_eq_true, Bool.not_eq_true', beq_iff_eq, Option.any_eq_true, bne_iff_ne]
    at hfacts hfacts'
  obtain ⟨⟨⟨⟨hupgrade, hmethod⟩, hsession⟩, hdrains⟩, q, hq, hother⟩ := hfacts
  obtain ⟨⟨⟨⟨hupgrade', hmethod'⟩, hsession'⟩, hdrains'⟩, q', hq', hown, hmessages⟩ := hfacts'
  constructor
  · obtain ⟨x, hx, hverdict, hchanges, -⟩ := hrefused r hr hupgrade
    have hstatus : x.answer.status = 400 := by
      refine hverdict.body.2 ⟨hmethod, hdrains, ⟨0, by rw [hsession, hlookup], hlive⟩, fun q'' hq'' => ?_⟩
      cases hq.symm.trans hq''
      rwa [hsession]
    obtain ⟨-, htold, ⟨y, hy⟩, hlimiter⟩ := hchanges (by rw [hstatus]; decide)
    rw [hlimiter (by rw [hstatus]; decide)] at hy
    exact ⟨x, y, hx, hstatus, htold, hy⟩
  · obtain ⟨x, hx, hverdict, -, haccepts⟩ := haccepted r' hr' hupgrade'
    have hstatus : x.answer.status = 200 := by
      have hknown := hverdict.known
      simp only [List.mem_cons, List.not_mem_nil, or_false] at hknown
      rcases hknown with hok | hbody | hnone | hpost | hlimit
      · exact hok
      · exact absurd (hsession'.symm ▸ hown) ((hverdict.body.1 hbody).2.2.2 q' hq').2
      · have hlapsed := (hverdict.session.1 hnone).2.2 0 (by rw [hsession', hlookup])
        cases hlive.symm.trans hlapsed
      · exact absurd hmethod' (hverdict.method.1 hpost)
      · have hopens := (hverdict.limit.1 hlimit).2.1
        rw [hdrains'] at hopens
        cases hopens
    obtain ⟨c, q'', n, hc, -, hq'', -, htold⟩ := haccepts hstatus hdrains'
    rw [hsession', hlookup, Option.some.injEq] at hc
    rw [hq', Option.some.injEq] at hq''
    rw [← hq'', hmessages, ← hc] at htold
    exact ⟨x, n, hx, hstatus, htold⟩

end PollSocket.Server
