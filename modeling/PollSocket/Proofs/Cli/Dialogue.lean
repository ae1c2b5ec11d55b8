import PollSocket.Cli.Connect
import PollSocket.Proofs.Cli.Lines
import PollSocket.Proofs.Link.ExactlyOnce
import PollSocket.Proofs.Socket.Feeding

set_option autoImplicit false

/-!
# A session and a server

A dialogue is a session of a client together with the link of its socket to a server. The reader and the
loop of the session go on in any order; the network takes requests to the server and responses back, and
may report any call as failed; the server and other clients make whatever moves they like.

Every move of a dialogue is one of the link (`Kept.wired`), so that all that holds of links holds of
dialogues. A session that is over has delivered the lines that its reader got, if its handshake and its
drains were answered well and its caller did not give up (`input_delivered`). These are the lines of the
input in front of the first that is too long: of such a line and of all that follows nothing is said to
anybody (`longLine_dropped`).
-/

namespace PollSocket.Cli

variable {l : Link.State} {body : List UInt8} {call : Nat}

/-- What the reader of a session asks for next. -/
def Session.wish (s : Session) : Socket.Operation :=
  match s.unread with
  | line :: _ => .send line
  | [] => .closeWhenDrained

/-- What can happen next. -/
inductive Dialogue.Move where
  /-- The reader of the session goes on. -/
  | read
  /-- The loop of the session goes on. -/
  | turn
  /-- The caller of the session gives up. -/
  | stop (why : Ending)
  /-- The server goes on, or somebody else uses it. -/
  | server (m : Server.Move)
  /-- The request of a call reaches the server. -/
  | request (call : Nat)
  /-- The response to a call that was served reaches the session. -/
  | reply (call : Nat)
  /-- A call is reported as failed: it was refused, or its request or its response is lost, or late. -/
  | lose (call : Nat) (cause : Failure)

/-- A session and the link of its socket to a server. -/
structure Dialogue where
  session : Session
  link : Link.State

namespace Dialogue

/-- The body of the response to a call, once it has been served with success. -/
def body? (d : Dialogue) (call : Nat) : Option (List UInt8) :=
  match d.link.client.world.calls[call]?,
      (d.link.errands.lookup call).bind (d.link.server.world.threads[·]?) with
  | some x, some y =>
    match Link.report? call x y with
    | some (.succeed _ body) => some body
    | _ => none
  | _, _ => none

/-- An event of the session that is these moves of the link. Nothing happens to a session that is over. -/
def happen (d : Dialogue) (e : Session.Event) (moves : List Link.Move) : Dialogue :=
  if d.session.ended then d
  else { session := d.session.step e, link := moves.foldl Link.State.after d.link }

/-- The dialogue after a move. -/
def after (d : Dialogue) : Move → Dialogue
  | .read => if d.session.reading then d.happen .read [.client (.post 0 d.session.wish)] else d
  | .turn => d.happen .turn [.client (if d.session.world.agenda.isEmpty then .drive else .step)]
  | .stop why => d.happen (.stop why) []
  | .server m => { d with link := d.link.after (.server m) }
  | .request call => { d with link := d.link.after (.request call) }
  | .reply call =>
    match d.body? call with
    | some body => d.happen (.answer call (.ok body)) [.reply call]
    | none => d
  | .lose call cause =>
    if d.session.world.awaits call then
      d.happen (.answer call (.error cause)) [.client (.fault cause), .lose call]
    else d

/-- A new session and a server. -/
def start (c : ClientConfig) (input : String) (s : Server.History) : Dialogue :=
  { session := .start c input, link := .start (Session.options c) s }

/-- The dialogue after a run. -/
def run (c : ClientConfig) (input : String) (s : Server.History) (moves : List Move) : Dialogue :=
  moves.foldl after (.start c input s)

theorem run_concat (c : ClientConfig) (input : String) (s : Server.History) (moves : List Move)
    (m : Move) : run c input s (moves ++ [m]) = (run c input s moves).after m :=
  List.foldl_append

/-! ## Parts of an event -/

end Dialogue

namespace Session

variable {s : Session}

/-- The reader posts what it asks for on a loop that is open. -/
theorem read_eq (hreading : s.reading = true) (hopen : s.world.loop.closed = false) : s.read = { s with
    world := (s.world.post (s.wish.task 0)).1
    unread := s.unread.tail
    reading := !s.unread.isEmpty } := by
  obtain ⟨url, world, unread, reading, ending, printed, records⟩ := s
  cases hreading
  cases unread with
  | nil => rfl
  | cons line rest =>
    have hposted : world.posted (.send 0 line) = ((world.post (.send 0 line)).1, .ok ()) := by
      have haccepted : (world.loop.post (.send 0 line)).2 = true := by
        rw [Loop.post, if_neg (by simpa using hopen)]
      simp only [Socket.World.posted, Socket.World.post, haccepted, if_true]
    simp only [read, hposted]
    rfl

/-- A result is taken of a call that nobody has answered. -/
theorem answer_of_awaits (h : s.world.awaits call = true) :
    (∀ body, s.answer call (.ok body) =
      { s with world := (s.world.answer call (.succeed call body)).1 }) ∧
    ∀ cause, s.answer call (.error cause) =
      { s with world := ({ s.world with fault := cause }.answer call (.fail call)).1 } := by
  unfold Socket.World.awaits at h
  cases hx : s.world.calls[call]? with
  | none =>
    rw [hx] at h
    cases h
  | some x =>
    rw [hx] at h
    have hopen : x.answered = false := by simpa using h
    simp [answer, hx, hopen]

theorem answer_of_not_awaits (h : s.world.awaits call = false) (result : Except Failure (List UInt8)) :
    s.answer call result = s := by
  unfold Socket.World.awaits at h
  cases hx : s.world.calls[call]? with
  | none => simp [answer, hx]
  | some x =>
    rw [hx] at h
    have hdone : x.answered = true := by simpa using h
    simp [answer, hx, hdone]

/-- What is observed is printed or recorded, or ends the session. -/
theorem observe_cases (s : Session) (n : Socket.Note) :
    (s.observe n).world = s.world ∧ (s.observe n).unread = s.unread ∧
      (s.observe n).reading = s.reading ∧
      ((s.observe n).ending = s.ending ∨
        (s.observe n).ending = (s.ending <|> some .cancelled) ∧ ∃ r, n = .called r .closed) := by
  cases n with
  | called r event =>
    cases event with
    | closed => exact ⟨rfl, rfl, rfl, Or.inr ⟨rfl, r, rfl⟩⟩
    | _ => exact ⟨rfl, rfl, rfl, Or.inl rfl⟩
  | issued call =>
    unfold observe
    dsimp only
    split
    · exact ⟨rfl, rfl, rfl, Or.inl rfl⟩
    · split <;> exact ⟨rfl, rfl, rfl, Or.inl rfl⟩
  | _ =>
    exact ⟨rfl, rfl, rfl, Or.inl rfl⟩

theorem foldl_observe (notes : List Socket.Note) (s : Session) :
    (notes.foldl observe s).world = s.world ∧ (notes.foldl observe s).unread = s.unread ∧
      (notes.foldl observe s).reading = s.reading ∧
      ((notes.foldl observe s).ending = s.ending ∨
        (notes.foldl observe s).ending = (s.ending <|> some .cancelled) ∧
          ∃ r, Socket.Note.called r .closed ∈ notes) := by
  induction notes generalizing s with
  | nil => exact ⟨rfl, rfl, rfl, Or.inl rfl⟩
  | cons n notes ih =>
    obtain ⟨hworld, hunread, hreading, hending⟩ := ih (s.observe n)
    obtain ⟨hworld', hunread', hreading', hending'⟩ := s.observe_cases n
    refine ⟨hworld.trans hworld', hunread.trans hunread', hreading.trans hreading', ?_⟩
    -- the first reason to end stays
    have hstays : ((s.ending <|> some Ending.cancelled) <|> some .cancelled) =
        (s.ending <|> some .cancelled) := by
      cases s.ending <;> rfl
    rw [List.foldl_cons]
    rcases hending with hsame | ⟨hclosed, r, hmem⟩ <;> rcases hending' with hsame' | ⟨hclosed', r', rfl⟩
    · exact Or.inl (hsame.trans hsame')
    · exact Or.inr ⟨hsame.trans hclosed', r', List.mem_cons_self⟩
    · exact Or.inr ⟨hsame' ▸ hclosed, r, List.mem_cons_of_mem n hmem⟩
    · exact Or.inr ⟨by rw [hclosed, hclosed', hstays], r', List.mem_cons_self⟩

/-- A turn changes the world and lets the session see what is new in its journal. -/
theorem turn_cases (s : Session) :
    let world := if s.world.agenda.isEmpty then { s.world with agenda := [.run 0 none] } else s.world.step
    s.turn.world = world ∧ s.turn.unread = s.unread ∧ s.turn.reading = s.reading ∧
      (s.turn.ending = s.ending ∨ s.turn.ending = (s.ending <|> some .cancelled) ∧
        ∃ r, Socket.Note.called r .closed ∈ world.journal.drop s.world.journal.length) :=
  foldl_observe _ { s with world := _ }

end Session

namespace Dialogue

/-! ## What every move keeps -/

/-- Tasks that the reader has asked for: to send the lines `front`, and to close the socket once it has
come to the end. -/
def asked (front : List String) (reading : Bool) : List Socket.Task :=
  front.map (Socket.Task.send 0) ++ if reading then [] else [.closeWhenDrained 0]

/-- What was asked for is the beginning of all that will be. -/
theorem asked_part (front : List String) {unread : List String} {reading : Bool}
    (hend : reading = false → unread = []) : asked front reading <+:
      (front ++ unread).map (Socket.Task.send 0) ++ [Socket.Task.closeWhenDrained 0] := by
  cases reading with
  | true =>
    refine ⟨unread.map (Socket.Task.send 0) ++ [.closeWhenDrained 0], ?_⟩
    simp [asked]
  | false =>
    rw [hend rfl, List.append_nil]
    exact List.prefix_rfl

/-- What holds of a dialogue after the moves of a run. -/
structure Kept (c : ClientConfig) (input : String) (s : Server.History) (moves : List Move)
    (d : Dialogue) : Prop where
  /-- The link has made moves of its own, with no requests of others but those of the dialogue. -/
  linked : ∃ front, d.link = Link.run (Session.options c) s front ∧
    ∀ r, .server (.request r) ∈ front → .server (.request r) ∈ moves
  wired : d.session.world = d.link.client.world
  fed : ∃ front, front ++ d.session.unread = readLines input ∧
    (d.session.reading = false → d.session.unread = []) ∧
    d.link.client.Fed (asked front d.session.reading)
  /-- A session ends when its socket is closed, or when its caller gives up. -/
  told : (∀ why, .stop why ∉ moves) → d.session.ending = none ∨
    d.session.ending = some .cancelled ∧ .closed ∈ d.link.client.occasions 0

namespace Kept

variable {c : ClientConfig} {input : String} {s : Server.History} {moves : List Move} {d : Dialogue}

variable (h : Kept c input s moves d)
include h

theorem linked_concat (m : Move) (news : List Link.Move)
    (hnews : ∀ r, .server (.request r) ∈ news → m = .server (.request r)) :
    ∃ front, news.foldl Link.State.after d.link = Link.run (Session.options c) s front ∧
      ∀ r, .server (.request r) ∈ front → .server (.request r) ∈ moves ++ [m] := by
  obtain ⟨front, hlink, hfront⟩ := h.linked
  refine ⟨front ++ news, ?_, fun r hr => ?_⟩
  · rw [hlink, Link.run, Link.run, List.foldl_append]
  · rcases List.mem_append.1 hr with hr | hr
    · exact List.mem_append_left _ (hfront r hr)
    · rw [hnews r hr]
      simp

/-- Nothing happens. -/
theorem idle (m : Move) : Kept c input s (moves ++ [m]) d where
  linked := h.linked_concat m [] (by simp)
  __ := h
  told hstop := h.told fun why hwhy => hstop why (List.mem_append_left _ hwhy)

/-- The server goes on, or gets a request. -/
theorem aside (m : Move) {n : Link.Move} (hnews : ∀ r, n = .server (.request r) → m = .server (.request r))
    (hclient : (d.link.after n).client = d.link.client) :
    Kept c input s (moves ++ [m]) { d with link := d.link.after n } where
  linked := h.linked_concat m [n] fun r hr => hnews r (List.mem_singleton.1 hr).symm
  wired := h.wired.trans (congrArg Socket.History.world hclient.symm)
  fed := by
    rw [hclient]
    exact h.fed
  told hstop := by
    rw [hclient]
    exact h.told fun why hwhy => hstop why (List.mem_append_left _ hwhy)

/-- An event of the session that neither reads nor ends it. -/
theorem event (m : Move) {session : Session} (news : List Link.Move) (hnews : ∀ r, .server (.request r) ∉ news)
    (hworld : session.world = (news.foldl Link.State.after d.link).client.world)
    (hunread : session.unread = d.session.unread) (hreading : session.reading = d.session.reading)
    (hfed : ∀ tasks, d.link.client.Fed tasks → (news.foldl Link.State.after d.link).client.Fed tasks)
    (htold : (∀ why, .stop why ∉ moves ++ [m]) → session.ending = none ∨
      session.ending = some .cancelled ∧
        .closed ∈ (news.foldl Link.State.after d.link).client.occasions 0) :
    Kept c input s (moves ++ [m]) ⟨session, news.foldl Link.State.after d.link⟩ where
  linked := h.linked_concat m news fun r hr => absurd hr (hnews r)
  wired := hworld
  fed := by
    obtain ⟨front, hlines, hend, htasks⟩ := h.fed
    refine ⟨front, hunread ▸ hlines, fun hdone => ?_, ?_⟩
    · exact hunread.trans (hend (hreading ▸ hdone))
    · show Socket.History.Fed _ (asked front session.reading)
      rw [hreading]
      exact hfed _ htasks
  told := htold

/-- The reader asks for what comes next. -/
theorem read (hreading : d.session.reading = true)
    (hsocket : 0 < d.link.client.world.sockets.length) : Kept c input s (moves ++ [.read])
      ⟨d.session.read, d.link.after (.client (.post 0 d.session.wish))⟩ := by
  obtain ⟨front, hlines, -, htasks⟩ := h.fed
  have hplain : (d.session.wish.task 0).exchanges = false := by
    unfold Session.wish
    split <;> rfl
  have hafter : d.link.client.after (.post 0 d.session.wish) =
      { d.link.client with world := (d.link.client.world.post (d.session.wish.task 0)).1 } := if_pos hsocket
  have hposted := htasks.asks hsocket hplain
  have hnext : asked front d.session.reading ++ [d.session.wish.task 0] =
      asked (front ++ d.session.unread.head?.toList) (!d.session.unread.isEmpty) := by
    rw [hreading, Session.wish]
    cases d.session.unread <;> simp [asked, Socket.Operation.task]
  rw [Session.read_eq hreading (by rw [h.wired]; exact htasks.unclosed)]
  refine ⟨h.linked_concat .read [.client (.post 0 d.session.wish)] (by simp), ?_,
    ⟨front ++ d.session.unread.head?.toList, ?_, fun hdone => ?_, ?_⟩, fun hstop => ?_⟩
  · show (d.session.world.post _).1 = (d.link.client.after (.post 0 d.session.wish)).world
    rw [hafter, h.wired]
  · show _ ++ d.session.unread.tail = _
    rw [← hlines]
    cases d.session.unread <;> simp
  · show d.session.unread.tail = []
    cases hunread : d.session.unread with
    | nil => rfl
    | cons line rest => simp [hunread] at hdone
  · show (d.link.client.after (.post 0 d.session.wish)).Fed _
    rw [← hnext]
    exact hposted
  · show _ ∨ _ ∧ _ ∈ (d.link.client.after (.post 0 d.session.wish)).occasions 0
    rw [hafter]
    exact h.told fun why hwhy => hstop why (List.mem_append_left _ hwhy)

/-- The loop goes on. What the session sees of a handler that was called is an occasion of the socket. -/
theorem turn (hsingle : d.link.client.world.sockets.length = 1) :
    Kept c input s (moves ++ [.turn]) ⟨d.session.turn,
      d.link.after (.client (if d.session.world.agenda.isEmpty then .drive else .step))⟩ := by
  obtain ⟨hworld, hunread, hreading, hending⟩ := d.session.turn_cases
  obtain ⟨front, -, -, htasks⟩ := h.fed
  have hbefore : (∀ why, Move.stop why ∉ moves ++ [.turn]) → d.session.ending = none ∨
      d.session.ending = some .cancelled ∧ .closed ∈ d.link.client.occasions 0 :=
    fun hstop => h.told fun why hwhy => hstop why (List.mem_append_left _ hwhy)
  cases hempty : d.session.world.agenda.isEmpty with
  | true =>
    rw [hempty, if_pos rfl] at hworld hending
    rw [if_pos rfl]
    have hdrive : d.link.client.after .drive =
        { d.link.client with world := { d.link.client.world with agenda := [.run 0 none] } } :=
      if_pos (by rw [← h.wired]; exact hempty)
    refine h.event .turn [.client .drive] (by simp) ?_ hunread hreading
      (fun tasks hfed => hfed.after (m := .drive) rfl) fun hstop => ?_
    · show d.session.turn.world = (d.link.client.after .drive).world
      rw [hworld, hdrive, h.wired]
    · show _ ∨ _ ∧ _ ∈ (d.link.client.after .drive).occasions 0
      rw [hdrive]
      rcases hending with hsame | ⟨-, r, hr⟩
      · rw [hsame]
        exact hbefore hstop
      · -- nothing is noted when a run starts
        rw [List.drop_length] at hr
        cases hr
  | false =>
    rw [hempty, if_neg (by simp)] at hworld hending
    refine h.event .turn [.client .step] (by simp) ?_ hunread hreading
      (fun tasks hfed => hfed.step) fun hstop => ?_
    · show d.session.turn.world = d.link.client.world.step
      rw [hworld, h.wired]
    · show _ ∨ _ ∧ _ ∈ d.link.client.step.occasions 0
      rw [Socket.History.occasions_step, List.mem_append]
      rcases hending with hsame | ⟨hclosed, r, hr⟩
      · rw [hsame]
        exact (hbefore hstop).imp_right fun ⟨hended, htold⟩ => ⟨hended, Or.inl htold⟩
      · rw [h.wired] at hr
        obtain ⟨hemitting, hlt⟩ := htasks.idle.emitting_of_called hr
        obtain rfl : r = 0 := by omega
        refine Or.inr ⟨?_, Or.inr (by rw [hemitting]; simp)⟩
        rcases hbefore hstop with hnone | ⟨hsome, -⟩
        · rw [hclosed, hnone]
          rfl
        · rw [hclosed, hsome]
          rfl

omit h in
/-- A call that was served with success is answered so by the link. -/
theorem reply_of_body? (hbody : d.body? call = some body) :
    d.link.after (.reply call) = { d.link with client := d.link.client.after (.succeed call body) } := by
  unfold body? at hbody
  split at hbody
  next x y hx hy =>
    split at hbody
    next k body' hreport =>
      cases hbody
      obtain ⟨hfail, -⟩ | ⟨body', hsucceed, -⟩ :=
        Link.report?_cases (w := { d.link.server.world with threads := [y] }) (t := 0) rfl hreport
      · cases hfail
      · cases hsucceed
        simp only [Link.State.after, hx, hy, hreport]
    next => cases hbody
  next => cases hbody

/-- The response to a call comes in. -/
theorem reply (hbody : d.body? call = some body) : Kept c input s (moves ++ [.reply call])
      ⟨d.session.answer call (.ok body), d.link.after (.reply call)⟩ := by
  have hclient : (d.link.after (.reply call)).client = d.link.client.after (.succeed call body) := by
    rw [reply_of_body? hbody]
  have hbooks : (d.link.client.after (.succeed call body)).toBooks = d.link.client.toBooks := by
    unfold Socket.History.after
    dsimp only
    split <;> rfl
  have hsession : (d.session.answer call (.ok body)).world =
        (d.link.client.after (.succeed call body)).world ∧
      (d.session.answer call (.ok body)).unread = d.session.unread ∧
      (d.session.answer call (.ok body)).reading = d.session.reading ∧
      (d.session.answer call (.ok body)).ending = d.session.ending := by
    unfold Socket.History.after
    dsimp only
    rw [← h.wired]
    cases hawaits : d.session.world.awaits call with
    | true =>
      rw [(Session.answer_of_awaits hawaits).1]
      exact ⟨rfl, rfl, rfl, rfl⟩
    | false =>
      rw [Session.answer_of_not_awaits hawaits]
      exact ⟨h.wired, rfl, rfl, rfl⟩
  obtain ⟨hworld, hunread, hreading, hending⟩ := hsession
  refine h.event _ [.reply call] (by simp) (hworld.trans ?_) hunread hreading
    (fun tasks hfed => ?_) fun hstop => ?_
  · exact congrArg Socket.History.world hclient.symm
  · show (d.link.after (.reply call)).client.Fed tasks
    rw [hclient]
    exact hfed.after rfl
  · show _ ∨ _ ∧ _ ∈ (d.link.after (.reply call)).client.occasions 0
    rw [hending, hclient, Socket.History.occasions, hbooks]
    exact h.told fun why hwhy => hstop why (List.mem_append_left _ hwhy)

/-- A call is reported as failed. -/
theorem lose (hawaits : d.session.world.awaits call = true) (cause : Failure) :
    Kept c input s (moves ++ [.lose call cause])
      ⟨d.session.answer call (.error cause),
        (d.link.after (.client (.fault cause))).after (.lose call)⟩ := by
  have hclient : (d.link.client.after (.fault cause)).after (.fail call) =
      { d.link.client with
        world := ({ d.link.client.world with fault := cause }.answer call (.fail call)).1 } :=
    if_pos (by rw [h.wired] at hawaits; exact hawaits)
  rw [(Session.answer_of_awaits hawaits).2]
  refine h.event _ [.client (.fault cause), .lose call] (by simp) ?_ rfl rfl
    (fun tasks hfed => ?_) fun hstop => ?_
  · show _ = ((d.link.client.after (.fault cause)).after (.fail call)).world
    rw [hclient, h.wired]
  · exact (hfed.after (m := .fault cause) rfl).after (m := .fail call) rfl
  · show _ ∨ _ ∧ _ ∈ ((d.link.client.after (.fault cause)).after (.fail call)).occasions 0
    rw [hclient]
    exact h.told fun why hwhy => hstop why (List.mem_append_left _ hwhy)

/-- Nothing happens to a session that is over. -/
theorem happen (m : Move) {e : Session.Event} {news : List Link.Move} (hstep : d.session.ended = false →
      Kept c input s (moves ++ [m]) ⟨d.session.step e, news.foldl Link.State.after d.link⟩) :
    Kept c input s (moves ++ [m]) (d.happen e news) := by
  unfold Dialogue.happen
  split
  · exact h.idle m
  next hover => exact hstep (Bool.eq_false_iff.2 hover)

/-- The caller gives up. -/
theorem stop (why : Ending) : Kept c input s (moves ++ [.stop why]) ⟨d.session.stop why, d.link⟩ :=
  h.event (.stop why) [] (by simp) h.wired rfl rfl (fun _ hfed => hfed) fun hstop =>
    absurd (by simp) (hstop why)

theorem after (hsingle : d.link.client.world.sockets.length = 1) (m : Move) :
    Kept c input s (moves ++ [m]) (d.after m) := by
  cases m with
  | read =>
    simp only [Dialogue.after]
    split
    next hreading =>
      refine h.happen .read fun hover => ?_
      rw [show d.session.step .read = d.session.read from if_neg (by simp [hover])]
      exact h.read hreading (by omega)
    next => exact h.idle .read
  | turn =>
    refine h.happen .turn fun hover => ?_
    rw [show d.session.step .turn = d.session.turn from if_neg (by simp [hover])]
    exact h.turn hsingle
  | stop why =>
    refine h.happen (.stop why) fun hover => ?_
    rw [show d.session.step (.stop why) = d.session.stop why from if_neg (by simp [hover])]
    exact h.stop why
  | server n => exact h.aside _ (fun r hr => by cases hr; rfl) rfl
  | request call =>
    refine h.aside _ (fun r hr => by cases hr) ?_
    have hpasses := d.link.passes_after (.request call)
    generalize d.link.after (.request call) = l at hpasses ⊢
    cases hpasses <;> rfl
  | reply call =>
    simp only [Dialogue.after]
    split
    next body hbody =>
      refine h.happen (.reply call) fun hover => ?_
      rw [show d.session.step (.answer call (.ok body)) = d.session.answer call (.ok body) from
        if_neg (by simp [hover])]
      exact h.reply hbody
    next => exact h.idle _
  | lose call cause =>
    simp only [Dialogue.after]
    split
    next hawaits =>
      refine h.happen (.lose call cause) fun hover => ?_
      rw [show d.session.step (.answer call (.error cause)) = d.session.answer call (.error cause) from
        if_neg (by simp [hover])]
      exact h.lose hawaits cause
    next => exact h.idle _

end Kept

/-- Every run keeps the invariant. -/
theorem kept_run (c : ClientConfig) (input : String) (settings : Server.Settings)
    (limiter : Option Server.Limiter) (ids : Server.Ids) (moves : List Move) :
    Kept c input (.new settings limiter ids) moves (run c input (.new settings limiter ids) moves) := by
  induction moves using List.reverseRecOn with
  | nil =>
    have hidle : ∀ slot script, (Session.options c).handlers.get slot = some script → script = [] := by
      intro slot script hscript
      cases slot <;> cases hscript <;> rfl
    exact
      { linked := ⟨[], rfl, by simp⟩
        wired := rfl
        fed := ⟨[], rfl, fun hdone => (by cases hdone), Socket.History.Fed.create hidle⟩
        told _ := Or.inl rfl }
  | append_singleton front m ih =>
    rw [run_concat]
    obtain ⟨linkMoves, hlink, -⟩ := ih.linked
    refine ih.after ?_ m
    rw [hlink]
    exact (Link.linked_run _ _ _ _ linkMoves).single

/-! ## Delivery -/

/-- A socket that has seen no failure has taken none. -/
theorem not_failed {o : Socket.Options} (hl : Link.Linked o l)
    (hfine : ∀ e ∈ l.client.trail 0, e.refuses = false ∧ e.spoils = false) (call : Nat) :
    Socket.Task.fail call ∉ l.client.taken := by
  intro hmem
  obtain ⟨x, hx, -⟩ := hl.sound.flights.answered call
    (List.mem_filterMap.2 ⟨_, List.mem_append_left _ hmem, rfl⟩)
  have hdeed : x.failure ∈ l.client.trail 0 := by
    refine List.mem_filterMap.2 ⟨_, hmem, ?_⟩
    show (l.client.world.calls[call]?.bind fun x => if x.owner = 0 then some x.failure else none) = _
    rw [hx, Option.bind_some, if_pos (hl.owner hx)]
  obtain ⟨hrefuses, hspoils⟩ := hfine _ hdeed
  unfold Socket.Call.failure at hrefuses hspoils
  cases hbatch : x.batch with
  | none =>
    rw [hbatch] at hrefuses
    cases hrefuses
  | some batch =>
    rw [hbatch] at hspoils
    cases hspoils

/-- Nothing is left to be told if the calls that are outstanding carry nothing. -/
theorem unheard_eq_nil (h : ∀ call, l.client.outstanding 0 call → l.client.world.batch call = []) :
    l.unheard = [] := by
  refine List.flatMap_eq_nil_iff.2 fun call hcall => ?_
  rw [Link.State.unheardOf]
  split
  · rfl
  next hopen =>
    rw [h call ⟨Socket.World.mem_callsOf.1 hcall, Bool.eq_false_iff.2 hopen⟩]
    exact List.drop_nil

/-- A session that is over has delivered the lines that its reader got, if its handshake and its drains were
answered well and its caller did not give up: it has come to the end of the input, and the handlers of the
server were told these lines for it, each once and in order. If nobody else sends requests, they were told
nothing else. What the reader gets are all lines exactly if all of them fit. -/
theorem input_delivered (c : ClientConfig) (input : String) (settings : Server.Settings)
    (limiter : Option Server.Limiter) (ids : Server.Ids) (moves : List Move)
    (hstop : ∀ why, .stop why ∉ moves)
    (hfine : ∀ e ∈ (run c input (.new settings limiter ids) moves).link.client.trail 0,
      e.refuses = false ∧ e.spoils = false)
    (hover : (run c input (.new settings limiter ids) moves).session.ended = true) :
    let d := run c input (.new settings limiter ids) moves
    d.session.outcome = .ok () ∧ d.session.reading = false ∧ d.session.unread = [] ∧
    d.link.seen.map (·.2) = readLines input ∧
    ((∀ r, .server (.request r) ∉ moves) → d.link.server.told.map (·.2.2) = readLines input) ∧
    readLines input <+: allLines input ∧
    (readLines input = allLines input ↔ ∀ line ∈ rawLines input, fits line = true) := by
  intro d
  have hkept : Kept c input (.new settings limiter ids) moves d :=
    kept_run c input settings limiter ids moves
  obtain ⟨linkMoves, hlink, halone⟩ := hkept.linked
  have hl : Link.Linked (Session.options c) d.link := hlink ▸ Link.linked_run _ _ _ _ linkMoves
  obtain ⟨clientMoves, hclient⟩ := hl.client
  -- the session has ended because its socket is closed
  obtain ⟨hending, htold⟩ : d.session.ending = some .cancelled ∧ .closed ∈ d.link.client.occasions 0 :=
    (hkept.told hstop).resolve_left (Option.isSome_iff_ne_none.1 (Bool.and_eq_true_iff.1 hover).1)
  have hclosed : (d.link.client.world.socket 0).state = .closed := by
    have hrefuses : ∀ e ∈ d.link.client.trail 0, e.refuses = false := fun e he => (hfine e he).1
    rw [hclient] at htold hrefuses ⊢
    exact Socket.closed_of_occasion htold hrefuses
  have houtcome : d.session.outcome = .ok () := by
    rw [Session.outcome, hkept.wired, hclosed, hending]
    rfl
  -- a socket that was only asked to close once drained is closed when all is drained
  obtain ⟨front, hlines, hend, hfed⟩ := hkept.fed
  have hpart := asked_part front hend
  rw [hlines] at hpart
  obtain ⟨hasked, houtstanding, hbatches⟩ :
      Socket.Task.closeWhenDrained 0 ∈ asked front d.session.reading ∧
        (∀ call, d.link.client.outstanding 0 call → d.link.client.world.batch call = []) ∧
        (d.link.client.world.callsOf 0).flatMap d.link.client.world.batch = readLines input := by
    have hspoils : ∀ e ∈ d.link.client.trail 0, e.spoils = false := fun e he => (hfine e he).2
    rw [hclient] at hfed hclosed hspoils ⊢
    exact hfed.drained hpart hclosed hspoils
  have hreading : d.session.reading = false := by
    by_contra hreading
    simp [asked, hreading] at hasked
  have hseen : d.link.seen.map (·.2) = readLines input := by
    have hheard := Link.heard_of_unfailing (Session.options c) settings limiter ids linkMoves
      (hlink ▸ not_failed hl hfine)
    rw [← hlink] at hheard
    rw [← hbatches, ← hheard, unheard_eq_nil houtstanding, List.append_nil]
  refine ⟨houtcome, hreading, hend hreading, hseen, fun hothers => ?_, readLines_part input,
    readLines_eq_allLines_iff input⟩
  have htold := Link.seen_of_alone (Session.options c) settings limiter ids linkMoves
    fun r hr => hothers r (halone r hr)
  rw [← hlink] at htold
  rw [← hseen, htold, List.map_map]
  rfl

/-- The server sends back what it gets. The second line is read while the first is on its way, and has a
drain of its own. -/
def lineByLine : List Move :=
  List.flatten [[.server (.register "message" .echo), .read], List.replicate 4 .turn,
    .request 0 :: List.replicate 3 (.server (.step 0)), .reply 0 :: List.replicate 8 .turn,
    [.request 1, .read, .read], List.replicate 12 (.server (.step 1)),
    .reply 1 :: List.replicate 16 .turn, .request 2 :: List.replicate 12 (.server (.step 2)),
    .reply 2 :: List.replicate 16 .turn]

theorem lineByLine_delivered :
    let d := run { url := "ws://host" } "a\r\nb" (.new {} none {}) lineByLine
    (∀ why, .stop why ∉ lineByLine) ∧
    (∀ e ∈ d.link.client.trail 0, e.refuses = false ∧ e.spoils = false) ∧ d.session.ended = true ∧
    d.session.outcome = .ok () ∧ d.session.reading = false ∧
    d.link.server.told.map (·.2.2) = ["a", "b"] ∧ readLines "a\r\nb" = allLines "a\r\nb" := by
  have hstop : ∀ why, Move.stop why ∉ lineByLine := by
    simp [lineByLine]
  have hothers : ∀ r, Move.server (.request r) ∉ lineByLine := by
    simp [lineByLine]
  have hread : readLines "a\r\nb" = ["a", "b"] ∧ ∀ line ∈ rawLines "a\r\nb", fits line = true := by
    decide +kernel
  have hrun : (∀ e ∈ (run { url := "ws://host" } "a\r\nb" (.new {} none {}) lineByLine).link.client.trail 0,
        e.refuses = false ∧ e.spoils = false) ∧
      (run { url := "ws://host" } "a\r\nb" (.new {} none {}) lineByLine).session.ended = true := by
    decide +kernel
  obtain ⟨houtcome, hreading, -, -, htold, -, hall⟩ :=
    input_delivered { url := "ws://host" } "a\r\nb" {} none {} lineByLine hstop hrun.1 hrun.2
  exact ⟨hstop, hrun.1, hrun.2, houtcome, hreading, (htold hothers).trans hread.1, hall.2 hread.2⟩

/-- Runs on inputs of which the same is read do not differ. -/
theorem run_congr (c : ClientConfig) {input other : String} (h : readLines input = readLines other)
    (s : Server.History) (moves : List Move) : run c input s moves = run c other s moves := by
  rw [run, run, start, start, Session.start, Session.start, h]

/-- A line of one byte too many. -/
def longLine : String := String.ofList (List.replicate (maxLine + 1) 'x')

/-- A session whose input has a line that is too long ends as if all were well: its handshake and its drains
were answered, its caller did not give up, and it has no failure to report. Yet only the lines in front of
the long one were delivered. -/
theorem longLine_dropped :
    let input := "before" ++ "\n" ++ (longLine ++ "\n" ++ "after\n")
    let d := run { url := "ws://host" } input (.new {} none {}) lineByLine
    (∀ why, .stop why ∉ lineByLine) ∧
    (∀ e ∈ d.link.client.trail 0, e.refuses = false ∧ e.spoils = false) ∧ d.session.ended = true ∧
    d.session.outcome = .ok () ∧ d.session.reading = false ∧
    d.link.server.told.map (·.2.2) = ["before"] ∧ allLines input = ["before", longLine, "after"] := by
  have hlong : '\n' ∉ longLine.toList := by
    rw [longLine, String.toList_ofList, List.mem_replicate]
    exact fun h => absurd h.2 (by decide)
  have hbefore : '\n' ∉ "before".toList := by
    decide
  have hread : readLines ("before" ++ "\n" ++ (longLine ++ "\n" ++ "after\n")) = readLines "before\n" := by
    have hfits : fits longLine.toList = false := by
      refine fits_eq_false ?_
      rw [longLine, String.toList_ofList, List.length_replicate]
      exact Nat.lt_succ_self maxLine
    rw [readLines_append_line _ hbefore (by decide +kernel), readLines_append_long _ hlong hfits]
    decide +kernel
  have hall : allLines ("before" ++ "\n" ++ (longLine ++ "\n" ++ "after\n")) =
      ["before", longLine, "after"] := by
    have hend : String.ofList (withoutReturn longLine.toList) = longLine := by
      rw [withoutReturn, if_neg, String.ofList_toList]
      rw [longLine, String.toList_ofList, List.getLast?_replicate]
      decide
    have hfirst : String.ofList (withoutReturn "before".toList) = "before" := by
      decide +kernel
    have hlast : allLines "after\n" = ["after"] := by
      decide +kernel
    rw [allLines_append_line _ hbefore, allLines_append_line _ hlong, hfirst, hend, hlast]
  intro input d
  have hd : d = run { url := "ws://host" } "before\n" (.new {} none {}) lineByLine :=
    run_congr _ hread _ _
  rw [hd]
  refine ⟨by simp [lineByLine], ?_⟩
  rw [← and_assoc, ← and_assoc, ← and_assoc, ← and_assoc]
  refine ⟨?_, hall⟩
  decide +kernel

end Dialogue

end PollSocket.Cli
