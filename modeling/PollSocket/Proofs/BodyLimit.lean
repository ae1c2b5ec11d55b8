import PollSocket.Proofs.Exchange
import PollSocket.Proofs.Server.Refusals
import PollSocket.Proofs.Socket.Dispatch

set_option autoImplicit false

/-!
# Bodies beyond the limit

Both sides read the first bytes of a body only. What they read in a body that is cut off is nothing, or what
stands first in the whole body: no value but a number is complete without its last character, and a cut inside
a character leaves replacement characters, which complete nothing (`first?_take`). So a long body may be
refused, but it never loses some of its messages (`limit_never_shortens`).
-/

namespace PollSocket

/-- Fields of the value that a body begins with, whatever its length. -/
def firstFields? (shape : BodyShape) (body : List UInt8) : Option Fields :=
  (Json.first? (Text.decode body)).bind fun v => Fields.ofValue shape v.1

/-- Messages of the drain that a body begins with. -/
def drainMessages? (body : List UInt8) : Option (List String) :=
  (firstFields? .drainRequest body).map fun f => f.messages.items?.getD []

/-- Messages of the answer that a body begins with, if there is a list of them. -/
def answerMessages? (body : List UInt8) : Option (List String) :=
  (firstFields? .drainResponse body).bind fun f => f.messages.items?

/-- The body is accepted as the answer to a drain, of which the first bytes are read. -/
def isAccepted (body : List UInt8) : Bool := (decodeDrainResponse (body.take maxBody)).isOk

/-- An exchange hands over `kept` of a response with this body. -/
def HandsOver (body kept : List UInt8) : Prop :=
  ∃ (r : Request) (written : String) (code : Int) (status : String) (broken : Option String),
    (Reply.response code status body broken).result r written = .ok kept

/-! ## Drains -/

theorem drainMessages?_eq (body : List UInt8) :
    drainMessages? body = (decodeDrainRequest? body).map DrainRequest.messages := by
  rw [drainMessages?, firstFields?, decodeDrainRequest?]
  cases (Json.first? (Text.decode body)).bind fun v => Fields.ofValue .drainRequest v.1 <;> rfl

theorem drainMessages?_of_take {body : List UInt8} {n : Nat} {q : DrainRequest}
    (h : decodeDrainRequest? (body.take n) = some q) : drainMessages? body = some q.messages := by
  rw [drainMessages?_eq, decodeDrainRequest?_take h]
  rfl

namespace Server

/-- The last stage of a drain: all messages have been told. -/
theorem Drain.rest_of_end {c n : Nat} {unwritable : Bool} {rest : List String} {taken : List (List String)}
    {a : Answer} {agenda : List Duty} (h : Drain c n unwritable rest taken a agenda) (hend : agenda = []) :
    rest = [] := by
  cases h with
  | done => rfl
  | delivering rest h => simp at hend
  | _ => cases hend

theorem Drain.status {c n : Nat} {unwritable : Bool} {rest : List String} {taken : List (List String)}
    {a : Answer} {agenda : List Duty} (h : Drain c n unwritable rest taken a agenda) : a.status = 200 := by
  cases h with
  | unlocking h | done h => exact h.1
  | _ => rfl

/-- A thread that has begun to serve a drain has refused it and told nothing, or it tells the messages of the
drain that the whole body begins with. -/
theorem Course.told_of_drain {w : World} {r : Request} {told : List (Nat × String)}
    {takes : List (Nat × List String)} {begun : List Nat} {x : Thread}
    (h : Course w (some r) told takes begun x) (hdrains : r.opens = false) (hserved : x.agenda ≠ [.serve r]) :
    (isSuccess x.answer.status = false ∧ x.agenda = [] ∧ told = []) ∨
    x.answer.status = 200 ∧ ∃ messages c, drainMessages? r.body = some messages ∧
      w.idOf? c = some (r.header.get sessionField) ∧ (∃ n, told = (messages.take n).map (Prod.mk c)) ∧
      (x.agenda = [] → x.thrown = none → told = messages.map (Prod.mk c)) := by
  cases h with
  | unserved hagenda => exact absurd hagenda hserved
  | refused hagenda hstatus => exact Or.inl ⟨hstatus, hagenda, rfl⟩
  | greeting hopens | greeted hopens =>
    cases hopens.symm.trans hdrains
  | @draining _ _ c _ q front rest _ hadmitted hmessages _ hdrain =>
    refine Or.inr ⟨hdrain.status, q.messages, c, drainMessages?_of_take hadmitted.body, hadmitted.session,
      ⟨front.length, by rw [hmessages, List.take_left]⟩, fun hend _ => ?_⟩
    rw [hmessages, hdrain.rest_of_end hend, List.append_nil]
  | @interrupted _ _ c q front rest hadmitted hmessages _ hthrown hanswer =>
    refine Or.inr ⟨by rw [hanswer], q.messages, c, drainMessages?_of_take hadmitted.body, hadmitted.session,
      ⟨front.length, by rw [hmessages, List.take_left]⟩, fun _ hnone => ?_⟩
    rw [hnone] at hthrown
    cases hthrown

/-- A request is served by the thread that is started for it. -/
theorem History.origins_request (settings : Settings) (limiter : Option Limiter) (ids : Ids)
    (front back : List Move) (r : Request) :
    (run settings limiter ids (front ++ .request r :: back)).origins[
      (run settings limiter ids front).world.threads.length]? = some (some r) := by
  have hs : Sound (run settings limiter ids front).toBooks (run settings limiter ids front).world :=
    .run settings limiter ids front
  rw [run_append, List.foldl_cons]
  apply History.origins_foldl
  show ((run settings limiter ids front).origins ++ [some r])[_]? = _
  rw [← hs.aligned, List.getElem?_concat_length]

end Server

/-! ## Answers -/

/-- The messages that are read from the first bytes of an answer are those that the whole body begins with. -/
theorem answerMessages?_of_take {body : List UInt8} {n : Nat} {messages : List String}
    (h : decodeDrainResponse (body.take n) = .ok messages) : answerMessages? body = some messages := by
  unfold decodeDrainResponse at h
  cases hwhole : Json.whole? (Text.decode (body.take n)) with
  | none =>
    rw [hwhole] at h
    cases h
  | some v =>
    rw [hwhole, Option.bind_some] at h
    rcases whole?_take body n hwhole with ⟨text, rfl⟩ | ⟨rest, hfirst⟩
    · cases h
    · rw [answerMessages?, firstFields?, hfirst, Option.bind_some]
      cases hfields : Fields.ofValue .drainResponse v with
      | none =>
        rw [hfields] at h
        cases h
      | some f =>
        rw [hfields] at h
        dsimp only at h
        cases hitems : f.messages.items? with
        | none =>
          rw [hitems] at h
          cases h
        | some items =>
          rw [hitems] at h
          cases h
          exact hitems

/-- Only the first bytes of a body are handed over. -/
theorem HandsOver.eq_take {body kept : List UInt8} (h : HandsOver body kept) : kept = body.take maxBody := by
  obtain ⟨r, written, code, status, broken, h⟩ := h
  unfold Reply.result at h
  dsimp only at h
  split at h
  · cases h
  · split at h
    · exact (Except.ok.inj h).symm
    · cases h

/-- They are, if the response is one of success and arrives whole. -/
theorem handsOver_take (body : List UInt8) : HandsOver body (body.take maxBody) :=
  ⟨⟨"POST", default, {}, []⟩, "", 200, "", none, (result_response _ _ _ _ _ _).2 ⟨rfl, rfl⟩⟩

/-- What a socket makes of the bodies that were handed over to it. -/
theorem flatMap_messagesOf {bodies kept : List (List UInt8)} (h : List.Forall₂ HandsOver bodies kept) :
    ∃ lists : List (List String), (bodies.filter isAccepted).map answerMessages? = lists.map some ∧
      kept.flatMap Socket.messagesOf = lists.flatten := by
  induction h with
  | nil => exact ⟨[], rfl, rfl⟩
  | @cons body k bodies kept hhead _ ih =>
    obtain ⟨lists, hlists, hflat⟩ := ih
    obtain rfl := hhead.eq_take
    cases hread : decodeDrainResponse (body.take maxBody) with
    | error reason =>
      have hno : isAccepted body = false := by rw [isAccepted, hread]; rfl
      refine ⟨lists, ?_, ?_⟩
      · rw [List.filter_cons_of_neg (by simp [hno]), hlists]
      · rw [List.flatMap_cons, hflat, Socket.messagesOf, hread]
        rfl
    | ok messages =>
      have hyes : isAccepted body = true := by rw [isAccepted, hread]; rfl
      refine ⟨messages :: lists, ?_, ?_⟩
      · rw [List.filter_cons_of_pos hyes, List.map_cons, answerMessages?_of_take hread, hlists, List.map_cons]
      · rw [List.flatMap_cons, hflat, Socket.messagesOf, hread]
        rfl

/-! ## Both sides -/

/-- The limit on bodies never shortens a batch.

The thread of a drain has refused it and told the handlers nothing, or the messages that it tells them are, in
order, those of the drain that the whole body begins with, all of them once it has come to its end. Between
tasks the consumer of a socket whose handler for messages is always there was called with the messages that
the whole bodies of the accepted answers begin with, and with nothing else; these are the occasions for it also
if the handler is not there. Wherever a body is cut off, it is refused or read like the whole body, and what is
read before the cut is read at every later one. -/
theorem limit_never_shortens :
    (∀ (settings : Server.Settings) (limiter : Option Server.Limiter) (ids : Server.Ids)
        (moves : List Server.Move) (t : Nat) (r : Server.Request) (x : Server.Thread),
      let h := Server.History.run settings limiter ids moves
      h.origins[t]? = some (some r) → h.world.threads[t]? = some x → x.agenda ≠ [.serve r] → r.opens = false →
      (isSuccess x.answer.status = false ∧ x.agenda = [] ∧ h.toldBy t = []) ∨
      x.answer.status = 200 ∧ ∃ messages c, drainMessages? r.body = some messages ∧
        h.world.idOf? c = some (r.header.get sessionField) ∧
        (∃ n, h.toldBy t = (messages.take n).map (Prod.mk c)) ∧
        (x.agenda = [] → x.thrown = none → h.toldBy t = messages.map (Prod.mk c))) ∧
    (∀ (moves : List Socket.Move) (s : Nat) (bodies : List (List UInt8)),
      let h := Socket.History.run moves
      h.world.idle = true → List.Forall₂ HandsOver bodies (h.answers s) →
      ∃ lists : List (List String), (bodies.filter isAccepted).map answerMessages? = lists.map some ∧
        Socket.messagesFor s h.emitted = lists.flatten ∧
        (Socket.Attended moves s .onMessage → Socket.messagesFor s h.world.callbacks = lists.flatten)) ∧
    (∀ (body : List UInt8) (n : Nat),
      (decodeDrainRequest? (body.take n) = none ∨ decodeDrainRequest? (body.take n) = decodeDrainRequest? body) ∧
      ((∃ reason, decodeDrainResponse (body.take n) = .error reason) ∨
        ∃ messages, decodeDrainResponse (body.take n) = .ok messages ∧ answerMessages? body = some messages) ∧
      ∀ m q, n ≤ m → decodeDrainRequest? (body.take n) = some q → decodeDrainRequest? (body.take m) = some q) := by
  refine ⟨?_, ?_, fun body n => ⟨?_, ?_, ?_⟩⟩
  · intro settings limiter ids moves t r x h horigin hx hserved hdrains
    have hs : Server.Sound h.toBooks h.world := .run settings limiter ids moves
    obtain ⟨o, ho, hcourse⟩ := hs.courses t x hx
    cases horigin.symm.trans ho
    exact hcourse.told_of_drain hdrains hserved
  · intro moves s bodies h hidle hbodies
    obtain ⟨lists, hlists, hflat⟩ := flatMap_messagesOf hbodies
    have hdue := (Socket.messagesFor_of_idle moves s hidle).trans hflat
    exact ⟨lists, hlists, hdue, fun hattended => (Socket.messagesFor_callbacks moves hattended).trans hdue⟩
  · cases hread : decodeDrainRequest? (body.take n) with
    | none => exact Or.inl rfl
    | some q => exact Or.inr (decodeDrainRequest?_take hread).symm
  · cases hread : decodeDrainResponse (body.take n) with
    | error reason => exact Or.inl ⟨reason, rfl⟩
    | ok messages => exact Or.inr ⟨messages, rfl, answerMessages?_of_take hread⟩
  · intro m q hle hread
    -- the shorter part is cut off the longer one
    rw [← Nat.min_eq_left hle, ← List.take_take] at hread
    exact decodeDrainRequest?_take hread

/-- A drain of the first session with something else behind it. -/
def followedDrain : Server.Request :=
  { method := "POST"
    header := ({} : Header).set sessionField (Server.Ids.draw {}).1
    body := DrainRequest.body ⟨"", defaultProtocol, ["a", "b"]⟩ ++ Text.encode "[\"c\"]" }

/-- A server that lets nobody wait opens a session and serves the drain. -/
def followedDrainServed : List Server.Move :=
  (.request Server.Chronicle.opening :: Server.Watch.steps 0 3) ++ .request followedDrain :: Server.Watch.steps 1 10

theorem limit_never_shortens_followedDrain :
    let h := Server.History.run { pollTimeout := 0 } none {} followedDrainServed
    let k := Socket.History.run Socket.spoiledAnswer
    (∃ messages, drainMessages? followedDrain.body = some messages ∧
      h.toldBy 1 = messages.map (Prod.mk 0) ∧ h.toldBy 1 = [(0, "a"), (0, "b")]) ∧
    k.world.idle = true ∧ Socket.Attended Socket.spoiledAnswer 0 .onMessage ∧
    ∃ lists : List (List String),
      ([drainResponseBody ["m", "n"], []].filter isAccepted).map answerMessages? = lists.map some ∧
        Socket.messagesFor 0 k.world.callbacks = lists.flatten := by
  have hserved :
      let h := Server.History.run { pollTimeout := 0 } none {} followedDrainServed
      (h.world.threads[1]?.any fun x => x.agenda.isEmpty && x.thrown.isNone && x.answer.status == 200) = true ∧
        h.toldBy 1 = [(0, "a"), (0, "b")] := by
    decide +kernel
  have hanswered :
      let k := Socket.History.run Socket.spoiledAnswer
      k.world.idle = true ∧ k.answers 0 = [drainResponseBody ["m", "n"], []] := by
    decide +kernel
  have hattended : Socket.Attended Socket.spoiledAnswer 0 .onMessage :=
    Socket.attended_of_take (by decide +kernel)
  have hthreads : (Server.History.run { pollTimeout := 0 } none {}
      (.request Server.Chronicle.opening :: Server.Watch.steps 0 3)).world.threads.length = 1 := by
    decide +kernel
  have hshort : (drainResponseBody ["m", "n"]).length ≤ maxBody := by decide +kernel
  have hdrains : followedDrain.opens = false := by decide +kernel
  have horigin := Server.History.origins_request { pollTimeout := 0 } none {}
    (.request Server.Chronicle.opening :: Server.Watch.steps 0 3) (Server.Watch.steps 1 10) followedDrain
  rw [hthreads] at horigin
  have htells := limit_never_shortens.1 { pollTimeout := 0 } none {} followedDrainServed 1 followedDrain
  have hdispatches := limit_never_shortens.2.1 Socket.spoiledAnswer 0 [drainResponseBody ["m", "n"], []]
  -- from here on only these facts about the runs matter
  change (Server.History.run { pollTimeout := 0 } none {} followedDrainServed).origins[1]? = _ at horigin
  generalize Server.History.run { pollTimeout := 0 } none {} followedDrainServed = h at hserved horigin htells ⊢
  generalize Socket.History.run Socket.spoiledAnswer = k at hanswered hdispatches ⊢
  obtain ⟨hthread, htold⟩ := hserved
  obtain ⟨hidle, hanswers⟩ := hanswered
  refine ⟨?_, hidle, hattended, ?_⟩
  · obtain ⟨x, hx, hfacts⟩ := (Option.any_eq_true _ _).1 hthread
    simp only [Bool.and_eq_true, List.isEmpty_iff, Option.isNone_iff_eq_none, beq_iff_eq] at hfacts
    obtain ⟨⟨hend, hthrown⟩, hstatus⟩ := hfacts
    rcases htells x horigin hx (by simp [hend]) hdrains with ⟨hrefused, -⟩ | ⟨-, messages, c, hmessages, -, -, hall⟩
    · rw [hstatus] at hrefused
      cases hrefused
    · have hmap := hall hend hthrown
      refine ⟨messages, hmessages, ?_, htold⟩
      obtain rfl : c = 0 := by
        rw [htold] at hmap
        cases messages with
        | nil => cases hmap
        | cons m more => exact (congrArg Prod.fst (List.cons.inj hmap).1).symm
      exact hmap
  · have hfirst := handsOver_take (drainResponseBody ["m", "n"])
    rw [List.take_of_length_le hshort] at hfirst
    obtain ⟨lists, hlists, -, hcalled⟩ :=
      hdispatches hidle (hanswers ▸ .cons hfirst (.cons (handsOver_take []) .nil))
    exact ⟨lists, hlists, hcalled hattended⟩

end PollSocket
