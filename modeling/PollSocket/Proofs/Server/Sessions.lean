import PollSocket.Proofs.Server.Shutdown

set_option autoImplicit false

/-!
# The tables of a server

Whenever a handler is entered, and between operations, no event is due, and then tables, connections and
events fit together (`Chronicle.Consistent`): the table of sessions and the table of connections have the
same entries, which are those of the connections that are open, and of every session the handlers have
been told once that it began and, if it is not in the tables any more, once that it ended. A call that shuts
the server down returns without an error and leaves both tables empty.
-/

namespace PollSocket.Server

variable {s : Chronicle} {record : List (Nat × String)} {back front : List Turn} {t : Nat}

/-! ## When the tables are looked at -/

/-- The duty can have to wait. -/
def Duty.blocks : Duty → Bool
  | .lock _ => true
  | .wait _ _ _ => true
  | _ => false

namespace World

variable {w : World}

/-- The next step of thread `t` enters a handler. -/
def enters (w : World) (t : Nat) : Bool := (w.agenda t).head?.any Duty.isReact && w.permits t

/-- No operation is under way: threads have come to their end, or wait for a session or for messages. -/
def paused (w : World) : Bool :=
  (List.range w.threads.length).all fun t => (w.agenda t).head?.all Duty.blocks

theorem settled_of_enters (h : w.enters t = true) : w.settled = true := by
  rw [enters, Bool.and_eq_true] at h
  obtain ⟨hreact, hpermits⟩ := h
  cases hagenda : w.agenda t with
  | nil =>
    rw [hagenda] at hreact
    cases hreact
  | cons d rest =>
    refine settled_of_exposed hagenda ?_ hpermits
    rw [hagenda] at hreact
    cases d with
    | react => rfl
    | _ => cases hreact

theorem settled_of_paused (h : w.paused = true) : w.settled = true := by
  rw [paused, List.all_eq_true] at h
  rw [settled, List.all_eq_true]
  intro t ht
  have hblocks := h t ht
  cases hagenda : w.agenda t with
  | nil => simp [due?, hagenda]
  | cons d rest =>
    rw [hagenda] at hblocks
    rw [due?_of_agenda hagenda]
    cases d with
    | lock | wait => rfl
    | _ => cases hblocks

theorem agenda_of_finished (h : w.finished t = true) : w.agenda t = [] := by
  cases hx : w.threads[t]? with
  | none => exact agenda_of_none hx
  | some x =>
    rw [agenda_of_some hx]
    simpa [finished, hx] using h

end World

namespace Chronicle

/-- Tables, connections and events fit together. -/
structure Consistent (s : Chronicle) : Prop where
  /-- A session is online, as the connection that has its id. -/
  sessions : ∀ id c, s.world.sessions.lookup id = some c →
    s.world.online.lookup id = some c ∧ s.world.idOf? c = some id
  /-- What is online is a connection with its id. -/
  named : ∀ id c, s.world.online.lookup id = some c → s.world.idOf? c = some id
  /-- A connection is online if and only if it is connected and its queue is not closed. -/
  online : ∀ c x, s.world.conn? c = some x →
    (s.world.online.lookup x.id = some c ↔ x.connected = true ∧ x.queue.closed = false)
  /-- All connections that ever were have begun. -/
  opened : tally "connect" s.events = s.world.conns.length
  /-- Those that have not ended are online. -/
  count : s.world.count + tally "disconnect" s.events = s.world.conns.length
  /-- A session has begun once and, if it is not online any more, has ended once after that. -/
  told : ∀ c x, s.world.conn? c = some x → entriesOf c s.events =
    if s.world.online.lookup x.id = some c then ["connect"] else ["connect", "disconnect"]
  /-- There are events of connections only. -/
  unborn : ∀ c, s.world.conn? c = none → entriesOf c s.events = []

theorem consistent_of_registered (h : s.world.Registered s.events) : s.Consistent := by
  have hnamed : ∀ id c, s.world.online.lookup id = some c → s.world.idOf? c = some id := by
    intro id c hlookup
    rw [World.idOf?_eq_row, (h.lookup id c).1 hlookup]
    rfl
  have honline : ∀ c x, s.world.conn? c = some x →
      (s.world.online.lookup x.id = some c ↔ x.connected = true ∧ x.queue.closed = false) := by
    intro c x hx
    rw [h.lookup, World.row?_of_conn hx]
    simp
  constructor
  case sessions =>
    intro id c hlookup
    rw [h.sessions] at hlookup
    exact ⟨hlookup, hnamed id c hlookup⟩
  case named => exact hnamed
  case online => exact honline
  case opened => exact h.opened
  case count => exact h.count
  case told =>
    intro c x hx
    have hrow := World.row?_of_conn hx
    have hclosed := h.closed c _ _ _ hrow
    rw [h.told c _ _ _ hrow, story]
    by_cases hconnected : x.connected = true
    · rw [if_pos hconnected, if_pos]
      rw [honline c x hx, hclosed, hconnected]
      simp
    · rw [if_neg hconnected, if_neg]
      rw [honline c x hx]
      exact fun hopen => hconnected hopen.1
  case unborn =>
    intro c hc
    apply h.unborn
    rw [World.row?_eq_face, World.getElem?_faces, hc]
    rfl

/-! ## The end of a shutdown -/

/-- The call of thread `t` has returned without an error, and both tables are empty. -/
structure ShutDown (s : Chronicle) (t : Nat) : Prop where
  returned : ∃ x, s.world.threads[t]? = some x ∧ x.agenda = [] ∧ x.thrown = none ∧ x.outcome = .ok ()
  sessions : s.world.sessions = []
  online : s.world.online = []

/-- A call to shut the server down starts with all connections that are open. -/
theorem closing_start (h : s.world.Registered record) :
    (s.after (.move .shutdown)).world.Closing s.world.threads.length s.world.conns.length := by
  have hnew : (s.after (.move .shutdown)).world.threads[s.world.threads.length]? =
      some { agenda := [.shutdown s.world.onlineConns] } :=
    List.getElem?_concat_length
  have hagenda := World.agenda_of_some hnew
  constructor
  · exact ⟨_, hnew, rfl, rfl, rfl⟩
  · intro d hd
    rw [hagenda, List.mem_singleton] at hd
    rw [hd]
    rfl
  · intro c _ hopen
    refine ⟨.shutdown s.world.onlineConns, by simp [hagenda], ?_⟩
    change (s.world.row? c).any (fun row => row.2.1) = true at hopen
    cases hrow : s.world.row? c with
    | none =>
      rw [hrow] at hopen
      cases hopen
    | some row =>
      obtain ⟨id, connected, closed⟩ := row
      obtain rfl : connected = true := by simpa [hrow] using hopen
      obtain rfl := h.closed c id true closed hrow
      obtain ⟨front, back, honline, -⟩ := List.lookup_eq_some_iff.1 ((h.lookup id c).2 hrow)
      exact List.mem_map.2 ⟨(id, c), by simp [honline], rfl⟩

/-- A call that has come to its end has closed all connections that there are. -/
theorem shutDown_of_closing (hregistered : s.world.Registered record)
    (h : s.world.Closing t s.world.conns.length) (hend : s.world.agenda t = []) : s.ShutDown t := by
  have honline : s.world.online = [] := by
    cases honline : s.world.online with
    | nil => rfl
    | cons e more =>
      obtain ⟨id, c⟩ := e
      have hrow : s.world.row? c = some (id, true, false) := by
        apply (hregistered.lookup id c).1
        rw [honline]
        simp
      have hc : c < s.world.conns.length := by
        by_contra hle
        rw [World.row?_eq_none_iff.2 (Nat.le_of_not_lt hle)] at hrow
        cases hrow
      have hopen : s.world.isOpen c = true := by
        rw [World.isOpen, hrow]
        rfl
      obtain ⟨d, hd, -⟩ := h.left c hc hopen
      rw [hend] at hd
      cases hd
  obtain ⟨x, hx, -, hthrown, houtcome⟩ := h.thread
  refine ⟨⟨x, hx, ?_, hthrown, houtcome⟩, hregistered.sessions.trans honline, honline⟩
  rw [← World.agenda_of_some hx, hend]

section Run

variable {settings : Settings} {limiter : Option Limiter} {ids : Ids}

/-- Along a run in which its caller does not give up and nobody throws, a call shuts the server down. -/
theorem closing_run (hdistinct : (run settings limiter ids front).world.Distinct)
    (hcalm : ∀ turn ∈ front ++ .move .shutdown :: back, turn.calm = true)
    (hcaller : .move (.cancel (run settings limiter ids front).world.threads.length) ∉ back) :
    (run settings limiter ids (front ++ .move .shutdown :: back)).world.Closing
        (run settings limiter ids front).world.threads.length
        (run settings limiter ids front).world.conns.length ∧
      (run settings limiter ids front).world.conns.length ≤
        (run settings limiter ids (front ++ .move .shutdown :: back)).world.conns.length := by
  induction back using List.reverseRecOn with
  | nil =>
    obtain ⟨record, -, hregistered⟩ := registered_run hdistinct
    rw [run_concat]
    exact ⟨closing_start hregistered, le_rfl⟩
  | append_singleton back turn ih =>
    have hsplit : front ++ Turn.move .shutdown :: (back ++ [turn]) =
        (front ++ Turn.move .shutdown :: back) ++ [turn] := by simp
    rw [hsplit] at hcalm ⊢
    have hbefore : ∀ turn' ∈ front ++ Turn.move .shutdown :: back, turn'.calm = true :=
      fun turn' hturn' => hcalm turn' (List.mem_append_left _ hturn')
    obtain ⟨hclosing, hle⟩ := ih hbefore fun hmem => hcaller (List.mem_append_left _ hmem)
    obtain ⟨record, hrecords⟩ := records_run settings limiter ids (front ++ .move .shutdown :: back)
    obtain ⟨news, hchanges, -⟩ := records_after hrecords turn
    rw [run_concat]
    constructor
    · apply closing_after hclosing hrecords hle (calm_run settings limiter ids hbefore)
      rintro rfl
      exact hcaller (by simp)
    · exact hle.trans hchanges.size_le

/-- What follows the call of a shutdown that is under way: `more` steps of threads. -/
theorem closing_steps (hdistinct : (run settings limiter ids front).world.Distinct)
    (hcalm : ∀ turn ∈ front ++ .move .shutdown :: back, turn.calm = true)
    (hcaller : .move (.cancel (run settings limiter ids front).world.threads.length) ∉ back)
    (more : List Nat) :
    (run settings limiter ids
        (front ++ .move .shutdown :: back ++ more.map fun u => .move (.step u))).world.Closing
      (run settings limiter ids front).world.threads.length
      (run settings limiter ids front).world.conns.length := by
  rw [List.append_assoc, List.cons_append]
  refine (closing_run hdistinct ?_ ?_).1
  · intro turn hturn
    rw [← List.cons_append, ← List.append_assoc, List.mem_append] at hturn
    rcases hturn with hturn | hturn
    · exact hcalm turn hturn
    · obtain ⟨u, -, rfl⟩ := List.mem_map.1 hturn
      rfl
  · rw [List.mem_append]
    rintro (hmem | hmem)
    · exact hcaller hmem
    · obtain ⟨u, -, ⟨⟩⟩ := List.mem_map.1 hmem

/-- A call that shuts the server down comes to its end by its own steps, after an event that another thread
has due, and opens nothing on the way. -/
theorem closing_ends (hdistinct : (run settings limiter ids front).world.Distinct)
    (hcalm : ∀ turn ∈ front ++ .move .shutdown :: back, turn.calm = true)
    (hcaller : .move (.cancel (run settings limiter ids front).world.threads.length) ∉ back) :
    let t := (run settings limiter ids front).world.threads.length
    let turns := front ++ .move .shutdown :: back
    ∃ first k, first.length ≤ 1 ∧
      let s := run settings limiter ids (turns ++ (first ++ List.replicate k t).map fun u => .move (.step u))
      s.world.agenda t = [] ∧ s.world.conns.length = (run settings limiter ids turns).world.conns.length := by
  intro t turns
  obtain ⟨record, hrecords⟩ := records_run settings limiter ids turns
  obtain ⟨first, hfirst, hclear, hsize⟩ := clears hrecords t
  rw [← run_append] at hclear hsize
  obtain ⟨record', hrecords'⟩ :=
    records_run settings limiter ids (turns ++ first.map fun u => .move (.step u))
  have hclosing := closing_steps hdistinct hcalm hcaller first
  have hle := (closing_run hdistinct hcalm hcaller).2
  have hsteps : ∀ turn ∈ turns ++ first.map fun u => Turn.move (.step u), turn.calm = true := by
    intro turn hturn
    rcases List.mem_append.1 hturn with hturn | hturn
    · exact hcalm turn hturn
    · obtain ⟨u, -, rfl⟩ := List.mem_map.1 hturn
      rfl
  obtain ⟨k, hend, hsize'⟩ := finishes _ _ hclosing hrecords' (hsize ▸ hle)
    (calm_run settings limiter ids hsteps) hclear le_rfl
  rw [← run_append, List.append_assoc] at hend hsize'
  refine ⟨first, k, hfirst, ?_⟩
  rw [List.map_append, List.map_replicate]
  exact ⟨hend, hsize'.trans hsize⟩

variable (settings limiter ids)

/-- Tables, connections and events fit together whenever a handler is entered and between operations, and a
call that shuts the server down returns without an error and leaves the tables empty.

Threads run in any order, handlers act and close what they like, and the only thing assumed of ids is that
they do not repeat. A call that shuts down is one whose caller does not give up, with handlers that do not
throw and no session that is opened meanwhile. It returns by its own steps, after an event that another
thread has due. -/
theorem sessions_consistent (turns : List Turn)
    (hdistinct : (run settings limiter ids turns).world.Distinct) :
    let s := run settings limiter ids turns
    (∀ t, s.world.enters t = true → s.Consistent) ∧
    (s.world.paused = true → s.Consistent) ∧
    ∀ front back, turns = front ++ .move .shutdown :: back →
      let before := run settings limiter ids front
      let t := before.world.threads.length
      .move (.cancel t) ∉ back → (∀ turn ∈ turns, turn.calm = true) →
      s.world.conns.length = before.world.conns.length →
      (s.world.finished t = true → s.ShutDown t) ∧
      ∃ first k, first.length ≤ 1 ∧
        (run settings limiter ids
          (turns ++ (first ++ List.replicate k t).map fun u => .move (.step u))).ShutDown t := by
  intro s
  obtain ⟨record, hrecords, hregistered⟩ := registered_run hdistinct
  have hconsistent : s.world.settled = true → s.Consistent := by
    intro hsettled
    apply consistent_of_registered
    rw [← hrecords.eq_events hsettled]
    exact hregistered
  refine ⟨fun t ht => hconsistent (World.settled_of_enters ht),
    fun hpaused => hconsistent (World.settled_of_paused hpaused), ?_⟩
  · rintro front back rfl before t hcaller hcalm hsize
    have hbefore : before.world.Distinct :=
      hdistinct.of_kept (idOf?_append front (.move .shutdown :: back))
    constructor
    · intro hfinished
      have hclosing := (closing_run hbefore hcalm hcaller).1
      rw [← hsize] at hclosing
      exact shutDown_of_closing hregistered hclosing (World.agenda_of_finished hfinished)
    · obtain ⟨first, k, hfirst, hend, hsize'⟩ := closing_ends hbefore hcalm hcaller
      refine ⟨first, k, hfirst, ?_⟩
      have hclosing := closing_steps hbefore hcalm hcaller (first ++ List.replicate k t)
      rw [← hsize, ← hsize'] at hclosing
      -- nothing is opened on the way, so that ids still do not repeat
      have hdistinct' := hdistinct.of_size (idOf?_append _ _) hsize'
      obtain ⟨record', -, hregistered'⟩ := registered_run hdistinct'
      exact shutDown_of_closing hregistered' hclosing hend

end Run

/-- A thread goes on `n` times. -/
def steps (t n : Nat) : List Turn := List.replicate n (.move (.step t))

/-- A request for a new session. -/
def opening : Request := { method := "POST", header := {}, body := [] }

/-- A drain of the first session that says goodbye. -/
def leaving : Request :=
  { method := "POST"
    header := ({} : Header).set sessionField (Ids.draw {}).1
    body := DrainRequest.body ⟨(Ids.draw {}).1, defaultProtocol, ["bye"]⟩ }

/-- A run with three sessions. The handler that the first one says goodbye to closes the second one and then
its own. -/
def farewells : List Turn :=
  .move (.register "message" (.script 0 [.close])) ::
    .move (.register "disconnect" (.script 1 [.count])) ::
    .move (.request opening) :: steps 0 3 ++ .move (.request opening) :: steps 1 3 ++
    .move (.request opening) :: steps 2 3 ++ .move (.request leaving) :: steps 3 5 ++ .closes 3 1 :: steps 3 15

theorem sessions_consistent_farewells :
    let s := run {} none {} (farewells.take 23)
    let s' := run {} none {} (farewells ++ .move .shutdown :: steps 4 8)
    (s.world.Distinct ∧ s.world.enters 3 = true ∧ s.world.count = 2 ∧
      s.events = [(0, "connect"), (1, "connect"), (2, "connect"), (1, "disconnect")] ∧ s.Consistent) ∧
    (s'.world.Distinct ∧ s'.world.paused = true ∧ s'.world.finished 4 = true ∧ s'.world.count = 0 ∧
      s'.events = s.events ++ [(0, "disconnect"), (2, "disconnect")] ∧ s'.Consistent ∧ s'.ShutDown 4) := by
  have hentered :
      let s := run {} none {} (farewells.take 23)
      s.world.Distinct ∧ s.world.enters 3 = true ∧ s.world.count = 2 ∧
        s.events = [(0, "connect"), (1, "connect"), (2, "connect"), (1, "disconnect")] := by
    decide +kernel
  have hended :
      let s' := run {} none {} (farewells ++ .move .shutdown :: steps 4 8)
      s'.world.Distinct ∧ s'.world.paused = true ∧ s'.world.finished 4 = true ∧ s'.world.count = 0 ∧
        s'.events = (run {} none {} (farewells.take 23)).events ++ [(0, "disconnect"), (2, "disconnect")] ∧
        s'.world.conns.length = (run {} none {} farewells).world.conns.length ∧
        (run {} none {} farewells).world.threads.length = 4 := by
    decide +kernel
  obtain ⟨hdistinct, henters, hcount, hevents⟩ := hentered
  obtain ⟨hdistinct', hpaused, hfinished, hcount', hevents', hsize, hthread⟩ := hended
  have hstart := sessions_consistent {} none {} _ hdistinct
  have hend := sessions_consistent {} none {} _ hdistinct'
  have hshut := hend.2.2 farewells (steps 4 8) rfl
  dsimp only at hshut
  rw [hthread] at hshut
  have hcalm : ∀ turn ∈ farewells ++ .move .shutdown :: steps 4 8, turn.calm = true := by
    decide +kernel
  exact ⟨⟨hdistinct, henters, hcount, hevents, hstart.1 3 henters⟩, hdistinct', hpaused, hfinished, hcount',
    hevents', hend.2.1 hpaused, (hshut (by simp [steps]) hcalm hsize).1 hfinished⟩

end Chronicle

end PollSocket.Server
