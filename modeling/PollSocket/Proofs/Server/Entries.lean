import PollSocket.Proofs.Server.Sound

set_option autoImplicit false

/-!
# What a move enters in the books

A move tells the handlers of one message, takes once, opens one connection or enters nothing
(`History.enters_after`). It changes one thread at most. What the thread has left to do belongs to the session
it drains, or to one that a request has found alive (`World.Next.goes`), and a duty that serves no request
leaves it with a status of success (`World.Next.duty`).
-/

namespace PollSocket.Server

variable {d : Duty} {duties rest : List Duty} {c : Nat} {x : Thread} {w : World}

/-- The connection whose session a duty drains. -/
def Duty.session? : Duty → Option Nat
  | .trigger event c _ => if event = "message" then some c else none
  | .lock c => some c
  | .deliver c _ => some c
  | .take c _ => some c
  | .wait c _ _ => some c
  | .reply c _ _ => some c
  | .unlock c => some c
  | _ => none

/-- The connection whose messages a duty takes or answers with. -/
def Duty.takesFrom? : Duty → Option Nat
  | .take c _ => some c
  | .wait c _ _ => some c
  | .reply c _ _ => some c
  | _ => none

theorem Duty.Takes.takesFrom? {q : Poll.Queue} {received : Nat} {r : Poll.Queue × Poll.Take}
    (h : d.Takes w x q c received r) : d.takesFrom? = some c := by
  cases h <;> rfl

theorem Duty.session?_of_takesFrom? (h : d.takesFrom? = some c) : d.session? = some c := by
  cases d with
  | take | wait | reply => exact h
  | _ => cases h

theorem Duty.session?_of_side (h : d.side = true) : d.session? = none := by
  cases d with
  | trigger event c data =>
    have hevent : ¬ event = "message" := by simpa [Duty.side] using h
    exact if_neg hevent
  | react | act | send | broadcast | close | shutdown | expire => rfl
  | _ => cases h

theorem Duty.takesFrom?_of_side (h : d.side = true) : d.takesFrom? = none := by
  cases d with
  | trigger | react | act | send | broadcast | close | shutdown | expire => rfl
  | _ => cases h

/-- The duty serves a request. -/
def Duty.isServe : Duty → Bool
  | .serve _ => true
  | _ => false

theorem Duty.isServe_of_side (h : d.side = true) : d.isServe = false := by
  cases d with
  | serve => cases h
  | _ => rfl

/-- The duty enters a handler. -/
def Duty.isReact : Duty → Bool
  | .react _ _ _ _ => true
  | _ => false

/-- The duty has a message to deliver. -/
def Duty.delivers : Duty → Bool
  | .deliver _ (_ :: _) => true
  | _ => false

theorem Duty.delivers_of_slight (h : d.slight w = true) : d.delivers = false := by
  cases d with
  | deliver c messages =>
    cases messages with
    | nil => rfl
    | cons => cases h
  | _ => rfl

theorem Duty.delivers_of_concludes (h : d.concludes x = true) : d.delivers = false := by
  cases d with
  | deliver => cases h
  | _ => rfl

theorem Duty.eq_of_tells? {data : String} (h : d.tells? = some (c, data)) :
    d = .trigger "message" c data := by
  cases d with
  | trigger event c' data' =>
    rw [Duty.tells?] at h
    split at h
    next hevent =>
      cases h
      rw [hevent]
    next => cases h
  | _ => cases h

/-- Side duties stand before another duty, and the first of them all is not `e`. -/
theorem side_append_ne {more : List Duty} {e : Duty} (hside : ∀ f ∈ duties, f.side = true)
    (he : e.side = false) (hd : d ≠ e) : duties ++ d :: more ≠ e :: rest := by
  intro heq
  cases duties with
  | nil => exact hd (List.cons.inj heq).1
  | cons f duties =>
    have hf := hside f List.mem_cons_self
    rw [(List.cons.inj heq).1, he] at hf
    cases hf

/-- A thread that is to serve a request has done nothing yet and has nothing else to do. -/
theorem Course.eq_of_serve {r r' : Request} {told : List (Nat × String)} {takes : List (Nat × List String)}
    {begun : List Nat} (h : Course w (some r) told takes begun x) (hagenda : x.agenda = .serve r' :: rest) :
    r' = r ∧ rest = [] := by
  cases h with
  | unserved ha =>
    cases ha.symm.trans hagenda
    exact ⟨rfl, rfl⟩
  | refused ha | greeted _ _ ha | interrupted _ _ ha =>
    cases ha.symm.trans hagenda
  | greeting _ _ hside ha => exact absurd (ha.symm.trans hagenda) (side_append_ne hside rfl nofun)
  | draining _ _ _ hdrain =>
    generalize x.agenda = agenda at hagenda hdrain
    generalize x.answer = answer at hdrain
    cases hdrain with
    | delivering _ hside => exact absurd hagenda (side_append_ne hside rfl nofun)
    | _ => cases hagenda

/-- What a duty plans, of what belongs to a session: a delivery tells of its first message, a take waits or
answers, and a request is admitted to a session that is alive. Other duties plan nothing of the kind. Handlers are
called only if they are told of an event. -/
inductive Duty.Plans (w : World) : Duty → List Duty → Prop where
  | aside {d : Duty} {duties : List Duty} (hd : d.delivers = false) (hduties : ∀ e ∈ duties, e.session? = none ∧
      e.isServe = false ∧ (d.isTrigger = false → e.isReact = false)) : Plans w d duties
  | tells (c : Nat) (m : String) (more : List String) :
    Plans w (.deliver c (m :: more)) [.trigger "message" c m, .deliver c more]
  | takes {d e : Duty} {c : Nat} (hd : d.takesFrom? = some c) (he : e.takesFrom? = some c) : Plans w d [e]
  | admits {r : Request} {id : String} {c : Nat} (hlive : w.liveSession? id = some c) (messages : List String) :
    Plans w (.serve r) [.lock c, .deliver c messages, .take c messages.length, .unlock c]

theorem Duty.Plan.plans {t : Nat} {pushed : List Duty} (h : d.Plan (w.pop t rest) x pushed) : d.Plans w pushed := by
  cases h with
  | reacts event c data =>
    refine .aside rfl fun e he => ?_
    obtain ⟨h, -, rfl⟩ := List.mem_map.1 he
    exact ⟨rfl, rfl, nofun⟩
  | tells c m more => exact .tells c m more
  | @admits _ c _ _ hlive =>
    have hlive' : w.liveSession? _ = some c := hlive
    exact .admits hlive' _
  | _ =>
    exact .aside rfl (by simp [Duty.session?, Duty.isServe, Duty.isReact])

/-- How a duty leaves its thread: with what it has planned before the rest, or at the end if a handler throws.
The status is the same or one of success, unless a request is refused. -/
structure Thread.Goes (w : World) (x y : Thread) (d : Duty) (rest : List Duty) : Prop where
  status : (∀ r, d ≠ .serve r) → y.answer.status = x.answer.status ∨ y.answer.status = 200
  agenda : (∃ duties, y.agenda = duties ++ rest ∧ d.Plans w duties) ∨
    d.side = true ∧ y.thrown.isSome = true ∧ y.agenda = []

namespace World

variable {t : Nat}

/-- How a duty that has been taken off the agenda leaves its thread. -/
theorem Did.goes {v : World} (hx : w.threads[t]? = some x) (h : (w.pop t rest).Did t x d v) :
    ∃ y, v.threads[t]? = some y ∧ x.Goes w y d rest := by
  have hpop := threads_pop hx rest
  have hnothing : d.delivers = false → ∃ duties, rest = duties ++ rest ∧ d.Plans w duties :=
    fun hd => ⟨[], rfl, .aside hd (by simp)⟩
  cases h with
  | passes hd hv => exact ⟨_, hv.thread hpop, fun _ => Or.inl rfl, Or.inl (hnothing (Duty.delivers_of_slight hd))⟩
  | plans hplan hv =>
    exact ⟨_, threads_push (hv.thread hpop) _, fun _ => Or.inl rfl, Or.inl ⟨_, rfl, hplan.plans⟩⟩
  | concludes hd hv =>
    refine ⟨_, threads_updateThread_self (hv.thread hpop) _, fun _ => Or.inl rfl, Or.inl (hnothing ?_)⟩
    exact Duty.delivers_of_concludes hd
  | refuses =>
    -- a refusal has another status
    exact ⟨_, threads_respond hpop _ _ _, fun hd => absurd rfl (hd _), Or.inl (hnothing rfl)⟩
  | greets | replies => exact ⟨_, threads_respond hpop _ _ _, fun _ => Or.inr rfl, Or.inl (hnothing rfl)⟩
  | locks | unlocks | registers => exact ⟨_, hpop, fun _ => Or.inl rfl, Or.inl (hnothing rfl)⟩
  | opens | closes =>
    exact ⟨_, threads_push hpop _, fun _ => Or.inl rfl,
      Or.inl ⟨_, rfl, .aside rfl (by simp [Duty.session?, Duty.isServe, Duty.isReact])⟩⟩
  | @takes _ _ _ _ r _ hd =>
    refine ⟨_, threads_push hpop _, fun _ => Or.inl rfl, Or.inl ⟨_, rfl, .takes hd.takesFrom? ?_⟩⟩
    cases r.2 <;> rfl
  | throws number c data value =>
    exact ⟨_, threads_throw hpop value, fun _ => Or.inl rfl, Or.inr ⟨rfl, rfl, rfl⟩⟩

theorem Next.goes (hx : w.Next t x d rest) :
    ∃ y, (w.stepThread t).threads[t]? = some y ∧ x.Goes w y d rest := by
  rw [hx.step_eq]
  exact ((w.pop t rest).did_discharge t x d).goes hx.thread

end World

/-- What is planned belongs to the session that the duty drains, or to one that a request finds alive. -/
theorem Duty.Plans.session {e : Duty} (h : d.Plans w duties) (he : e ∈ duties) (hc : e.session? = some c) :
    d.session? = some c ∨ ∃ r id, d = .serve r ∧ w.liveSession? id = some c := by
  cases h with
  | aside _ hduties =>
    rw [(hduties e he).1] at hc
    cases hc
  | tells c' m more =>
    simp only [List.mem_cons, List.not_mem_nil, or_false] at he
    rcases he with rfl | rfl <;> exact Or.inl hc
  | takes hd he' =>
    rw [List.mem_singleton] at he
    subst he
    rw [Duty.session?_of_takesFrom? he'] at hc
    exact Or.inl (Duty.session?_of_takesFrom? (hc ▸ hd))
  | @admits r id c' hlive =>
    have hsame : e.session? = some c' := by
      simp only [List.mem_cons, List.not_mem_nil, or_false] at he
      rcases he with rfl | rfl | rfl | rfl <;> rfl
    rw [hsame] at hc
    exact Or.inr ⟨r, id, rfl, hc ▸ hlive⟩

theorem Duty.Plans.fresh {e : Duty} (h : d.Plans w duties) (he : e ∈ duties) :
    e.isServe = false ∧ (d.isTrigger = false → e.isReact = false) := by
  cases h with
  | aside _ hduties => exact (hduties e he).2
  | tells | admits =>
    simp only [List.mem_cons, List.not_mem_nil, or_false] at he
    rcases he with rfl | rfl | rfl | rfl <;> exact ⟨rfl, fun _ => rfl⟩
  | takes _ htakes =>
    rw [List.mem_singleton] at he
    subst he
    cases e with
    | take | wait | reply => exact ⟨rfl, fun _ => rfl⟩
    | _ => cases htakes

/-- How a duty that serves no request leaves its thread: the status is the same or one of success, and
what is planned serves no request and drains the same session. -/
structure Thread.Remains (x y : Thread) (d : Duty) (rest : List Duty) : Prop where
  status : y.answer.status = x.answer.status ∨ y.answer.status = 200
  duties : ∀ e ∈ y.agenda, e ∈ rest ∨ e.isServe = false ∧ ∀ c, e.session? = some c → d.session? = some c

theorem World.Next.duty {t : Nat} (hx : w.Next t x d rest)
    (hd : ∀ r, d ≠ .serve r) : ∃ y, (w.stepThread t).threads[t]? = some y ∧ x.Remains y d rest := by
  obtain ⟨y, hy, hgoes⟩ := hx.goes
  refine ⟨y, hy, hgoes.status hd, fun e he => ?_⟩
  rcases hgoes.agenda with ⟨duties, hya, hplans⟩ | ⟨-, -, hya⟩
  · rw [hya, List.mem_append] at he
    rcases he with he | he
    · refine Or.inr ⟨(hplans.fresh he).1, fun c hc => ?_⟩
      rcases hplans.session he hc with hsame | ⟨r, -, hserve, -⟩
      · exact hsame
      · exact absurd hserve (hd r)
    · exact Or.inl he
  · rw [hya] at he
    cases he

/-- What move `m` enters in the books, from `h` to `k`: nothing, or one entry of a thread of `h`. -/
inductive History.Enters (h : History) (m : Move) (k : History) : Prop where
  | nothing (htold : k.told = h.told) (htakes : k.takes = h.takes) (hbegun : k.begun = h.begun)
  | tell {t c : Nat} {data : String} {x : Thread} {rest : List Duty}
    (hx : h.world.Next t x (.trigger "message" c data) rest)
    (htold : k.told = h.told ++ [(t, c, data)]) (htakes : k.takes = h.takes)
    (hbegun : k.begun = h.begun) (hm : m = .step t)
  | take {t c : Nat} {messages : List String} {x : Thread} {d : Duty} {rest : List Duty}
    (hx : h.world.Next t x d rest) (hd : d.takesFrom? = some c)
    (htold : k.told = h.told) (htakes : k.takes = h.takes ++ [(t, c, messages)])
    (hbegun : k.begun = h.begun)
  | begins {t c : Nat} (htold : k.told = h.told) (htakes : k.takes = h.takes)
    (hbegun : k.begun = h.begun ++ [(t, c)])

namespace History

theorem enters_step {h : History} {t : Nat} (hx : h.world.Next t x d rest) : h.Enters (.step t)
    { h.enter h.world (h.world.stepThread t) t x d with world := h.world.stepThread t } := by
  -- each duty makes one kind of entry at most
  set k : History := { h.enter h.world (h.world.stepThread t) t x d with world := h.world.stepThread t }
  have hquiet : d.tells? = none → h.world.takes? x d = none →
      (h.world.stepThread t).opened? t d = none → h.Enters (.step t) k := by
    intro htells htakes hopened
    refine .nothing ?_ ?_ ?_ <;> simp [k, Books.enter, htells, htakes, hopened]
  have htake : ∀ {c : Nat} {result : Option (List String)}, d.tells? = none →
      d.takesFrom? = some c → h.world.takes? x d = result.map (Prod.mk c) →
      (h.world.stepThread t).opened? t d = none → h.Enters (.step t) k := by
    intro c result htells hc htakes hopened
    cases result with
    | none => exact hquiet htells htakes hopened
    | some messages =>
      have htook : k.takes = h.takes ++ [(t, c, messages)] := by
        simp only [k, Books.enter, htakes]
        rfl
      exact .take hx hc (by simp [k, Books.enter, htells]) htook (by simp [k, Books.enter, hopened])
  cases d with
  | trigger event c data =>
    by_cases hevent : event = "message"
    · subst hevent
      exact .tell hx rfl (by simp [k, Books.enter, World.takes?]) (by simp [k, Books.enter, World.opened?]) rfl
    · exact hquiet (if_neg hevent) rfl rfl
  | serve r =>
    cases hopened : (h.world.stepThread t).opened? t (.serve r) with
    | none => exact hquiet rfl rfl hopened
    | some c =>
      have hbegan : k.begun = h.begun ++ [(t, c)] := by
        simp only [k, Books.enter, hopened]
        rfl
      exact .begins (by simp [k, Books.enter, Duty.tells?]) (by simp [k, Books.enter, World.takes?]) hbegan
  | take c n | wait c n deadline =>
    cases hy : h.world.conn? c with
    | none => exact hquiet rfl (by simp [World.takes?, hy]) rfl
    | some y => exact htake rfl rfl (by simp only [World.takes?, hy]; rfl) rfl
  | _ => exact hquiet rfl rfl rfl

theorem enters_after (h : History) (m : Move) : h.Enters m (h.after m) := by
  cases m with
  | step t =>
    rcases h.step_cases t with ⟨-, hsame⟩ | ⟨-, x, d, rest, hx, hstep⟩
    · rw [hsame]
      exact .nothing rfl rfl rfl
    · rw [hstep]
      exact enters_step hx
  | act t a =>
    unfold after
    dsimp only
    split <;> exact .nothing rfl rfl rfl
  | _ =>
    exact .nothing rfl rfl rfl

/-- A move tells the handlers of nothing, or it is a step of a thread that tells of one message. -/
theorem told_after (h : History) (m : Move) :
    (h.after m).told = h.told ∨
      ∃ t c data x rest, m = .step t ∧ h.world.Next t x (.trigger "message" c data) rest ∧
        (h.after m).told = h.told ++ [(t, c, data)] := by
  cases h.enters_after m with
  | nothing htold | take _ _ htold | begins htold => exact Or.inl htold
  | tell hx htold _ _ hm => exact Or.inr ⟨_, _, _, _, _, hm, hx, htold⟩

end History

/-! ## Positions of messages that were taken -/

namespace Books

/-- Messages that were taken from connection `c`, in the order of taking, with the threads that took
them. -/
def takenFrom (b : Books) (c : Nat) : List (Nat × String) :=
  b.takes.flatMap fun e => if e.2.1 = c then e.2.2.map (Prod.mk e.1) else []

/-- Positions of the messages that thread `t` took from connection `c` among those that the connection
has accepted. -/
def positions (b : Books) (t c : Nat) : List Nat :=
  (b.takenFrom c).findIdxs fun e => e.1 == t

theorem map_takenFrom (b : Books) (c : Nat) :
    (b.takenFrom c).map (·.2) = (b.takesFrom c).flatten := by
  rw [takenFrom, takesFrom]
  induction b.takes with
  | nil => rfl
  | cons e more ih =>
    rw [List.flatMap_cons, List.map_append, List.map_cons, ← List.singleton_append, entriesOf_append,
      List.flatten_append, entriesOf_singleton]
    congr 1
    by_cases hc : e.2.1 = c
    · simp [hc]
    · simp [hc]

/-- What thread `t` took from connection `c`. -/
theorem entriesOf_takenFrom (b : Books) (t c : Nat) :
    entriesOf t (b.takenFrom c) = (entriesOf c (b.takesBy t)).flatten := by
  rw [takenFrom, takesBy]
  induction b.takes with
  | nil => rfl
  | cons e more ih =>
    rw [List.flatMap_cons, ← List.singleton_append, entriesOf_append, entriesOf_append,
      entriesOf_append, List.flatten_append, entriesOf_singleton]
    congr 1
    by_cases ht : e.1 = t
    · by_cases hc : e.2.1 = c
      · simp [ht, hc, entriesOf]
      · simp [ht, hc, entriesOf]
    · by_cases hc : e.2.1 = c
      · simp [ht, hc, entriesOf]
      · simp [ht, hc]

theorem positions_sorted (b : Books) (t c : Nat) : (b.positions t c).Pairwise (· < ·) :=
  List.pairwise_findIdxs

theorem mem_positions {b : Books} {t i : Nat} :
    i ∈ b.positions t c ↔ ∃ m, (b.takenFrom c)[i]? = some (t, m) := by
  rw [positions, List.mem_findIdxs_iff_exists_getElem_pos]
  constructor
  · rintro ⟨hi, ht⟩
    refine ⟨(b.takenFrom c)[i].2, ?_⟩
    rw [List.getElem?_eq_getElem hi, ← beq_iff_eq.1 ht]
  · rintro ⟨m, hm⟩
    obtain ⟨hi, heq⟩ := List.getElem?_eq_some_iff.1 hm
    exact ⟨hi, by simp [heq]⟩

end Books

/-- Positions stand for the messages that were taken. -/
theorem Conserved.map_positions {b : Books} (h : Conserved b w) (t c : Nat) :
    (b.positions t c).map (fun i => (b.acceptedBy c)[i]?) =
      (entriesOf c (b.takesBy t)).flatten.map some := by
  rw [← b.entriesOf_takenFrom]
  have hentries : entriesOf t (b.takenFrom c) =
      ((b.takenFrom c).filter fun e => e.1 == t).map (·.2) := by
    rw [← List.filterMap_eq_filter, List.map_filterMap]
    refine List.filterMap_congr fun e _ => ?_
    simp [Option.guard]
  -- what was taken comes first among what was accepted
  have haccepted : ∀ i < (b.takenFrom c).length,
      (b.acceptedBy c)[i]? = (b.takenFrom c)[i]?.map (·.2) := by
    intro i hi
    have hlt : i < ((b.takenFrom c).map (·.2)).length := by rwa [List.length_map]
    rw [h c, ← b.map_takenFrom, List.getElem?_append_left hlt, List.getElem?_map]
  rw [hentries, Books.positions]
  refine List.ext_getElem (by simp [List.countP_eq_length_filter]) fun j hj hj' => ?_
  rw [List.length_map] at hj
  have hlt : ((b.takenFrom c).findIdxs fun e => e.1 == t)[j] < (b.takenFrom c).length := by
    simpa using List.getElem_findIdxs_lt hj
  rw [List.getElem_map, haccepted _ hlt, List.getElem?_eq_getElem hlt, List.getElem_map,
    List.getElem_map, List.getElem_filter_eq_getElem_getElem_findIdxs]
  rfl

end PollSocket.Server
