import PollSocket.Proofs.Socket.Parts
import PollSocket.Proofs.Socket.Sound

set_option autoImplicit false

/-!
# How histories go on

A step changes no call that was issued, and no step posts a completion: `World.Grows` says so of every
part of a step, and `History.Extends` of every move. The positions that a call of a socket which queues
again carries are therefore consecutive, and all positions before them are those of calls that have
succeeded (`consecutive_run`).
-/

namespace PollSocket.Socket

variable {h k : History} {c : Nat} {t : Task} {v w : World}

/-- A change that leaves the calls that were issued as they are and completes none. -/
structure World.Grows (w v : World) : Prop where
  keeps : w.Keeps v
  answered : ∀ (c : Nat) (x y : Call), w.calls[c]? = some x → v.calls[c]? = some y →
    y.answered = x.answered
  fresh : ∀ (c : Nat) (y : Call), w.calls.length ≤ c → v.calls[c]? = some y → y.answered = false
  size : v.sockets.length = w.sockets.length
  requeue : ∀ s, (v.socket s).requeue = (w.socket s).requeue
  /-- Tasks are added that are not posted once only, or the loop is closed. -/
  queue : ∃ tasks, (∀ t ∈ tasks, t.once? = none) ∧
    (v.loop.closed = w.loop.closed ∧ v.loop.queue = w.loop.queue ++ tasks ∨
      v.loop.closed = true ∧ v.loop.queue = tasks)

namespace World

theorem Keeps.length_le (h : w.Keeps v) : w.calls.length ≤ v.calls.length := by
  by_contra hlt
  have hget := List.getElem?_eq_getElem (Nat.lt_of_not_le hlt)
  obtain ⟨y, hy, -⟩ := h _ _ hget
  exact Nat.lt_irrefl _ (List.getElem?_eq_some_iff.1 hy).1

/-- Calls of a socket are only added. -/
theorem Keeps.callsOf_append (h : w.Keeps v) (s : Nat) :
    ∃ more, v.callsOf s = w.callsOf s ++ more ∧ ∀ c ∈ more, w.calls.length ≤ c := by
  obtain ⟨n, hn⟩ := Nat.exists_eq_add_of_le h.length_le
  -- a call keeps its owner, so only positions behind the old calls are new
  have hold : ∀ c ∈ List.range w.calls.length,
      (v.calls[c]?.map (·.owner) == some s) = (w.calls[c]?.map (·.owner) == some s) := by
    intro c hc
    obtain ⟨y, hy, hown, -⟩ := h c _ (List.getElem?_eq_getElem (List.mem_range.1 hc))
    rw [hy, List.getElem?_eq_getElem (List.mem_range.1 hc), Option.map_some, Option.map_some, hown]
  refine ⟨((List.range n).map (w.calls.length + ·)).filter
    fun c => v.calls[c]?.map (·.owner) == some s, ?_, fun c hc => ?_⟩
  · rw [callsOf, callsOf, hn, List.range_add, List.filter_append, List.filter_congr hold]
  · obtain ⟨i, -, rfl⟩ := List.mem_map.1 (List.mem_of_mem_filter hc)
    exact Nat.le_add_right _ _

theorem Keeps.batch_eq (h : w.Keeps v) (hc : c < w.calls.length) : v.batch c = w.batch c := by
  have hx := List.getElem?_eq_getElem hc
  obtain ⟨y, hy, -, -, hbatch⟩ := h c _ hx
  rw [World.batch, World.batch, hy, hx, Option.bind_some, Option.bind_some, hbatch]

namespace Grows

/-- Calls, sockets and loop may stay as they are. -/
theorem of_same (hcalls : v.calls = w.calls) (hsize : v.sockets.length = w.sockets.length)
    (hrequeue : ∀ s, (v.socket s).requeue = (w.socket s).requeue) (hloop : v.loop = w.loop) : Grows w v where
  keeps := .of_eq hcalls
  answered c x y hx hy := by
    rw [hcalls, hx] at hy
    cases hy
    rfl
  fresh c y hc hy := by
    rw [hcalls, List.getElem?_eq_none hc] at hy
    cases hy
  size := hsize
  requeue := hrequeue
  queue := ⟨[], by simp, by simp [hloop]⟩

theorem refl (w : World) : Grows w w := of_same rfl rfl (fun _ => rfl) rfl

theorem of_quiet (q : Quiet w v) : Grows w v := of_same q.calls q.size q.requeue q.loop

theorem trans {u : World} (h : Grows u v) (k : Grows v w) : Grows u w where
  keeps := h.keeps.trans k.keeps
  answered c x z hx hz := by
    obtain ⟨y, hy, -⟩ := h.keeps c x hx
    exact (k.answered c y z hy hz).trans (h.answered c x y hx hy)
  fresh c z hc hz := by
    by_cases hlt : c < v.calls.length
    · have hy := List.getElem?_eq_getElem hlt
      exact (k.answered c _ z hy hz).trans (h.fresh c _ hc hy)
    · exact k.fresh c z (Nat.le_of_not_lt hlt) hz
  size := k.size.trans h.size
  requeue s := (k.requeue s).trans (h.requeue s)
  queue := by
    obtain ⟨ts, hts, hv⟩ := h.queue
    obtain ⟨us, hus, hw⟩ := k.queue
    have hall : ∀ t ∈ ts ++ us, t.once? = none := by
      intro t ht
      rcases List.mem_append.1 ht with ht | ht
      · exact hts t ht
      · exact hus t ht
    rcases hw with ⟨hc, hq⟩ | ⟨hc, hq⟩
    · refine ⟨ts ++ us, hall, ?_⟩
      rcases hv with ⟨hc', hq'⟩ | ⟨hc', hq'⟩
      · exact Or.inl ⟨hc.trans hc', by rw [hq, hq', List.append_assoc]⟩
      · exact Or.inr ⟨hc.trans hc', by rw [hq, hq']⟩
    · exact ⟨us, hus, Or.inr ⟨hc, hq⟩⟩

section

variable (w : World)

/-- A socket changes, but not whether it queues again. -/
theorem update (s : Nat) (f : Socket → Socket) (h : ∀ x, (f x).requeue = x.requeue) : Grows w (w.update s f) :=
  of_same rfl (w.length_sockets_update s f) (w.field_update s f (·.requeue) h) rfl

theorem push (duties : List Duty) : Grows w (w.push duties) :=
  of_same rfl rfl (fun _ => rfl) rfl

theorem issue (s : Nat) (body : Option (List UInt8)) (batch : Option (List String)) :
    Grows w (w.issue s body batch) where
  keeps := .of_append (w.calls_issue s body batch)
  answered c x y hx hy := by
    rw [calls_issue, List.getElem?_append_left (List.getElem?_eq_some_iff.1 hx).1, hx] at hy
    cases hy
    rfl
  fresh c y hc hy := by
    rw [calls_issue, List.getElem?_append_right hc] at hy
    cases List.mem_singleton.1 (List.mem_of_getElem? hy)
    rfl
  size := w.length_sockets_update s _
  requeue r := by
    rw [socket_issue]
    split
    next hr => rw [hr.1]
    next => rfl
  queue := ⟨[], by simp, Or.inl ⟨rfl, (List.append_nil _).symm⟩⟩

theorem release (s : Nat) : Grows w (w.release s) where
  keeps := w.keeps_release s
  answered c x y hx hy := by
    unfold World.release at hy
    split at hy
    · cases hx.symm.trans hy
      rfl
    next d hd =>
      change (w.abort d).calls[c]? = some y at hy
      rw [calls_abort, List.getElem?_modify, hx] at hy
      cases hy
      split <;> rfl
  fresh c y hc hy := by
    have hlt := (List.getElem?_eq_some_iff.1 hy).1
    rw [length_calls_release] at hlt
    exact absurd hlt (Nat.not_lt_of_le hc)
  size := w.length_sockets_release s
  requeue := w.field_release s (·.requeue) fun _ _ => rfl
  queue := ⟨[], by simp, by simp [loop_release]⟩

theorem post (h : t.once? = none) : Grows w (w.post t).1 where
  keeps := .of_eq rfl
  answered := (refl w).answered
  fresh := (refl w).fresh
  size := rfl
  requeue _ := rfl
  queue := by
    show ∃ tasks, _ ∧ ((w.loop.post t).1.closed = _ ∧ (w.loop.post t).1.queue = _ ∨ _)
    unfold Loop.post
    split
    · exact ⟨[], by simp, Or.inl ⟨rfl, (List.append_nil _).symm⟩⟩
    · exact ⟨[t], by simpa using h, Or.inl ⟨rfl, rfl⟩⟩

theorem closeLoop : Grows w { w with loop := w.loop.close } where
  keeps := .of_eq rfl
  answered := (refl w).answered
  fresh := (refl w).fresh
  size := rfl
  requeue _ := rfl
  queue := ⟨[], by simp, Or.inr ⟨rfl, rfl⟩⟩

theorem postOr (h : t.once? = none) (refused : Failure → Note) : Grows w (w.postOr t refused) := by
  unfold World.postOr
  dsimp only
  split
  · exact post w h
  · exact trans (post w h) (of_quiet (.note _ _))

end

/-! ## Parts of a step -/

/-- Tasks and jobs of a socket. -/
theorem of_works {s : Nat} (h : w.Works s v) : Grows w v := by
  induction h with
  | rest => exact refl w
  | update _ hf ih => exact ih.trans (update _ s _ fun x => (hf x).1)
  | log _ _ _ _ ih => exact ih.trans (of_quiet (.log _ _ _ _ _))
  | push _ _ _ ih => exact ih.trans (push _ _)
  | issue _ _ _ ih => exact ih.trans (issue _ _ _ _)
  | release _ ih => exact ih.trans (release _ s)

theorem execute (w : World) (t : Task) : Grows w (w.execute t) := by
  cases hhost : t.host? w with
  | none =>
    rw [execute_of_host?_none hhost]
    exact refl w
  | some s => exact of_works (.execute hhost)

theorem throw (w : World) (value : Thrown) : Grows w (w.throw value) := by
  unfold World.throw
  split
  · exact of_same rfl rfl (fun _ => rfl) rfl
  · split <;> exact of_same rfl rfl (fun _ => rfl) rfl

theorem perform (w : World) (s : Nat) (data : String) (a : Act) : Grows w (w.perform s data a) := by
  cases a with
  | closeLoop => exact closeLoop w
  | throw value => exact throw w value
  | replace | remove => exact post w rfl
  | whenData expected script =>
    simp only [World.perform]
    split
    · exact push _ _
    · exact refl w
  | runLoop => exact push _ _
  | report => exact of_quiet (.note _ _)
  | _ => exact postOr w rfl _

theorem emit (w : World) (s : Nat) (event : Event) : Grows w (w.emit s event) := by
  unfold World.emit
  split
  · exact refl w
  · exact (of_quiet (.note _ _)).trans (push _ _)

end Grows

/-- What a step does once its task has left the loop. -/
theorem grows_step (w : World) :
    (w.taking? = none ∧ Grows w w.step) ∨
      ∃ t l, w.taking? = some t ∧ w.loop.next? = some (t, l) ∧ Grows { w with loop := l } w.step := by
  unfold step taking?
  cases hagenda : w.agenda with
  | nil => exact Or.inl ⟨rfl, .refl w⟩
  | cons d rest =>
    have hpopped : Grows w { w with agenda := rest } := .of_same rfl rfl (fun _ => rfl) rfl
    cases d using Duty.byJobs with
    | run ran inside =>
      dsimp only [discharge]
      cases hn : w.loop.next? with
      | none =>
        refine Or.inl ⟨rfl, hpopped.trans ?_⟩
        cases inside with
        | none => exact .of_quiet (.record _ w.fault ran)
        | some s => exact .of_quiet (.note _ _)
      | some next =>
        obtain ⟨t, l⟩ := next
        refine Or.inr ⟨t, l, rfl, rfl, ?_⟩
        exact .trans
          (v := ({ w with agenda := rest, loop := l } : World).push [.run (ran + 1) inside])
          (.of_same rfl rfl (fun _ => rfl) rfl) (.execute _ t)
    | act s data a => exact Or.inl ⟨rfl, hpopped.trans (.perform _ s data a)⟩
    | leave s event => exact Or.inl ⟨rfl, hpopped⟩
    | job s j =>
      cases j with
      | emit event => exact Or.inl ⟨rfl, hpopped.trans (.emit _ s event)⟩
      | _ =>
        exact Or.inl ⟨rfl, hpopped.trans (.of_works (.discharge rfl))⟩

end World

/-! ## Moves -/

/-- The task starts a completion callback. -/
def Task.completes : Task → Bool
  | .succeed _ _ => true
  | .fail _ => true
  | _ => false

theorem Task.not_completes_of_once? (h : t.once? = none) : t.completes = false := by
  cases t <;> first | rfl | cases h

/-- Completions that were accepted by the loop, oldest first. -/
def History.reports (h : History) : List Task := (h.taken ++ h.world.loop.queue).filter Task.completes

/-- A history that goes on. -/
structure History.Extends (h k : History) : Prop where
  keeps : h.world.Keeps k.world
  fresh : ∀ (c : Nat) (y : Call), h.world.calls.length ≤ c → k.world.calls[c]? = some y →
    y.answered = false
  taken : h.taken <+: k.taken
  carried : ∀ c < h.world.calls.length, k.carried c = h.carried c
  requeue : ∀ s < h.world.sockets.length,
    (k.world.socket s).requeue = (h.world.socket s).requeue

/-- A history that goes on without the network. -/
structure History.Proceeds (h k : History) : Prop extends h.Extends k where
  answered : ∀ (c : Nat) (x y : Call), h.world.calls[c]? = some x → k.world.calls[c]? = some y →
    y.answered = x.answered
  size : k.world.sockets.length = h.world.sockets.length
  subset : k.reports ⊆ h.reports
  /-- A loop that is open was open before and has lost no completion. -/
  kept : k.world.loop.closed = false → h.world.loop.closed = false ∧ k.reports = h.reports

namespace History

/-- The world grows while the books keep what they have. -/
theorem Proceeds.of_grows (htaken : h.taken <+: k.taken)
    (hcarried : ∀ c < h.world.calls.length, k.carried c = h.carried c) (hcalls : w.calls = h.world.calls)
    (hsockets : w.sockets = h.world.sockets) (hclosed : w.loop.closed = h.world.loop.closed)
    (hqueue : k.taken ++ w.loop.queue = h.taken ++ h.world.loop.queue) (hgrows : w.Grows k.world) :
    h.Proceeds k := by
  have hsocket : ∀ s, w.socket s = h.world.socket s := World.socket_of_sockets_eq hsockets
  obtain ⟨tasks, htasks, hloop⟩ := hgrows.queue
  -- what is posted meanwhile completes nothing
  have hnone : tasks.filter Task.completes = [] := by
    rw [List.filter_eq_nil_iff]
    intro t ht
    simp [Task.not_completes_of_once? (htasks t ht)]
  have hreports : h.reports = k.taken.filter Task.completes ++ w.loop.queue.filter Task.completes := by
    rw [reports, ← hqueue, List.filter_append]
  exact
    { keeps := (World.Keeps.of_eq hcalls).trans hgrows.keeps
      fresh := by
        rw [← hcalls]
        exact hgrows.fresh
      taken := htaken
      carried := hcarried
      requeue s _ := by
        rw [hgrows.requeue, hsocket]
      answered := by
        rw [← hcalls]
        exact hgrows.answered
      size := hgrows.size.trans (congrArg List.length hsockets)
      subset := by
        rw [hreports, reports, List.filter_append]
        rcases hloop with ⟨-, hq⟩ | ⟨-, hq⟩
        · rw [hq, List.filter_append, hnone, List.append_nil]
          exact fun _ ht => ht
        · rw [hq, hnone, List.append_nil]
          exact List.subset_append_left _ _
      kept hopen := by
        rcases hloop with ⟨hc, hq⟩ | ⟨hc, -⟩
        · refine ⟨by rw [← hclosed, ← hc, hopen], ?_⟩
          rw [hreports, reports, List.filter_append, hq, List.filter_append, hnone, List.append_nil]
        · rw [hopen] at hc
          cases hc }

theorem taken_step (h : History) : h.step.taken = h.taken ++ h.world.taking?.toList := by
  show ((h.world.booked h.toBooks).issue _ _).taken = _
  rw [taken_issue, World.booked]
  cases h.world.taking? with
  | none => cases h.world.emitting? <;> simp [Books.emit]
  | some t => rfl

theorem emitted_step (h : History) : h.step.emitted = h.emitted ++ h.world.emitting?.toList := by
  show (Books.issue _ _ _).emitted = _
  rw [emitted_issue]
  unfold World.booked World.taking? World.emitting?
  cases h.world.agenda with
  | nil => simp
  | cons d rest =>
    cases d with
    | run ran inside => cases h.world.loop.next? <;> simp [Books.take]
    | emit s event => rfl
    | _ => simp

/-- A move takes one task at most, the next of the loop. -/
theorem taken_after (h : History) (m : Move) : ∃ o : Option Task,
    (h.after m).taken = h.taken ++ o.toList ∧ ∀ t ∈ o, ∃ l, h.world.loop.next? = some (t, l) := by
  have hnone : ∀ {k : History}, k.taken = h.taken → ∃ o : Option Task,
      k.taken = h.taken ++ o.toList ∧ ∀ t ∈ o, ∃ l, h.world.loop.next? = some (t, l) :=
    fun hk => ⟨none, by simp [hk], by simp⟩
  cases m with
  | step =>
    refine ⟨h.world.taking?, h.taken_step, fun t ht => ?_⟩
    rcases h.world.grows_step with ⟨hnot, -⟩ | ⟨t', l, htake, hn, -⟩
    · cases hnot.symm.trans ht
    · rw [htake, Option.mem_some] at ht
      exact ⟨l, by rw [hn, ht]⟩
  | drive | post | act | succeed | fail =>
    apply hnone
    unfold after
    dsimp only
    split <;> rfl
  | _ => exact hnone rfl

/-- A move is an occasion to call a consumer at most. -/
theorem emitted_after (h : History) (m : Move) :
    (h.after m).emitted = h.emitted ++ (h.world.due? m).toList := by
  cases m with
  | step => exact h.emitted_step
  | drive | post | act | succeed | fail =>
    unfold after
    dsimp only
    split <;> exact (List.append_nil _).symm
  | _ => exact (List.append_nil _).symm

/-- A move takes no completion, or one of a call that was outstanding. -/
theorem taken_cases (hs : Sound h.toBooks h.world) (m : Move) :
    ((∀ c, completed (h.after m).taken c = completed h.taken c) ∧
      ∀ w s, (h.after m).taken.flatMap (Task.messages w s) = h.taken.flatMap (Task.messages w s)) ∨
    ∃ t c, t ∈ h.reports ∧ t.once? = some (.complete c) ∧ completed h.taken c = false ∧
      (h.after m).taken = h.taken ++ [t] ∧
      ∀ d, completed (h.after m).taken d = true ↔ completed h.taken d = true ∨ d = c := by
  obtain ⟨next, htaken, hnext⟩ := h.taken_after m
  rw [htaken]
  cases next with
  | none => exact Or.inl ⟨fun c => by simp, fun w s => by simp⟩
  | some t =>
    obtain ⟨l, hn⟩ := hnext t rfl
    have hmem : t ∈ h.world.loop.queue := by
      rw [queue_of_next? hn]
      exact List.mem_cons_self
    -- a task that completes nothing changes neither outcomes nor what was brought
    by_cases hcompletes : ∃ c, t.once? = some (.complete c)
    · obtain ⟨c, hc⟩ := hcompletes
      refine Or.inr ⟨t, c, ?_, hc, hs.flights.not_completed_of_queue hmem hc, rfl, fun d => ?_⟩
      · refine List.mem_filter.2 ⟨List.mem_append_right _ hmem, ?_⟩
        cases t with
        | succeed | fail => rfl
        | _ => cases hc
      · rw [completed_iff, completed_iff, List.filterMap_append]
        simp [hc]
    · have hnot : ∀ c, t.once? ≠ some (.complete c) := fun c hc => hcompletes ⟨c, hc⟩
      refine Or.inl ⟨fun c => ?_, fun w s => ?_⟩
      · rw [Option.toList_some, completed_append]
        obtain ⟨hsucceeds, hfails⟩ := Task.of_not_completion hnot c
        rw [hsucceeds, hfails, Bool.or_false, Bool.or_false]
      · rw [Option.toList_some, List.flatMap_append, List.flatMap_singleton,
          Task.messages_of_not_completion hnot, List.append_nil]

theorem proceeds_step (h : History) : h.Proceeds h.step := by
  have hcarried : ∀ c < h.world.calls.length, h.step.carried c = h.carried c := by
    intro c hc
    have hbooked : (h.world.booked h.toBooks).carried c = h.carried c := by
      unfold World.booked
      split <;> rfl
    rw [← hbooked]
    show ((h.world.booked h.toBooks).issue _ _).carried c = _
    exact carried_issue_of_ne _ hc.ne _
  have htaken : h.step.taken = (h.world.booked h.toBooks).taken := taken_issue _ _ _
  rcases h.world.grows_step with ⟨hnone, hgrows⟩ | ⟨t, l, htake, hn, hgrows⟩
  · have hsame : h.step.taken = h.taken := by
      rw [htaken, World.booked, hnone]
      split
      next heq => cases heq
      next => rfl
      next => rfl
    exact .of_grows (by rw [hsame]) hcarried rfl rfl rfl (by rw [hsame]) hgrows
  · have htook : h.step.taken = h.taken ++ [t] := by
      rw [htaken, World.booked, htake]
      rfl
    have hopen : l.closed = h.world.loop.closed := by
      unfold Loop.next? at hn
      split at hn
      · cases hn
      · split at hn <;> cases hn
        rfl
    refine .of_grows (w := { h.world with loop := l }) ?_ hcarried rfl rfl hopen ?_ hgrows
    · rw [htook]
      exact List.prefix_append _ _
    · rw [htook, queue_of_next? hn, List.append_assoc]
      rfl

/-- Moves of the program and its handlers complete nothing. -/
theorem proceeds_after (h : History) {m : Move} (hm : m.isLocal = true) : h.Proceeds (h.after m) := by
  have hsame : ∀ {w : World}, h.world.Grows w → h.Proceeds { h with world := w } := fun hgrows =>
    .of_grows List.prefix_rfl (fun _ _ => rfl) rfl rfl rfl rfl hgrows
  have hmoves := h.moves_after m
  generalize h.after m = k at hmoves ⊢
  cases hmoves with
  | idle => exact hsame (.refl _)
  | step => exact h.proceeds_step
  | drive | fault => exact hsame (.of_same rfl rfl (fun _ => rfl) rfl)
  | post op => exact hsame (.post _ (by cases op <;> rfl))
  | act => exact hsame (.perform _ _ _ _)
  | closeLoop => exact hsame (.closeLoop _)
  | create | succeed | fail => cases hm

/-- Every move leaves what was issued as it is. -/
theorem extends_after (h : History) (m : Move) : h.Extends (h.after m) := by
  have hrefl : h.Extends h := (h.proceeds_after (m := .fault h.world.fault) rfl).toExtends
  have hanswer : ∀ c t, h.Extends { h with world := (h.world.answer c t).1 } := by
    intro c t
    exact
      { keeps := h.world.keeps_answer c t
        fresh d y hd hy := by
          have hlt := (List.getElem?_eq_some_iff.1 hy).1
          change d < (h.world.calls.modify c _).length at hlt
          rw [List.length_modify] at hlt
          exact absurd hlt (Nat.not_lt_of_le hd)
        taken := List.prefix_rfl
        carried _ _ := rfl
        requeue _ _ := rfl }
  cases m with
  | create o =>
    have q := Quiet.create h.world o
    exact
      { keeps := .of_eq q.calls
        fresh c y hc hy := by
          change (h.world.create o).calls[c]? = some y at hy
          rw [q.calls] at hy
          exact absurd (List.getElem?_eq_some_iff.1 hy).1 (Nat.not_lt_of_le hc)
        taken := List.prefix_rfl
        carried _ _ := rfl
        requeue s hs := by
          refine (q.requeue s).trans ?_
          show ((h.world.addSocket o.socket).socket s).requeue = _
          rw [World.socket_addSocket, if_neg hs.ne] }
  | succeed c | fail c =>
    unfold after
    dsimp only
    split
    · exact hanswer c _
    · exact hrefl
  | _ => exact (h.proceeds_after rfl).toExtends

/-- Completions of an open loop are all accepted. -/
theorem reports_answer (h : History) (c : Nat) (ht : t.completes = true) :
    ({ h with world := (h.world.answer c t).1 } : History).reports =
      h.reports ++ if h.world.loop.closed then [] else [t] := by
  show (h.taken ++ (h.world.loop.post t).1.queue).filter Task.completes = _
  unfold reports Loop.post
  split
  · rw [List.append_nil]
  · rw [← List.append_assoc, List.filter_append, List.filter_cons_of_pos ht, List.filter_nil]

/-- The network answers a call: the sockets stay, and the completion is accepted at most once. -/
theorem after_completion (h : History) (c : Nat) {m : Move}
    (hm : (∃ body, m = .succeed c body ∧ t = .succeed c body) ∨ m = .fail c ∧ t = .fail c) :
    (h.after m).world.sockets = h.world.sockets ∧ (h.after m).taken = h.taken ∧
      ∀ r ∈ (h.after m).reports, r ∈ h.reports ∨ r = t := by
  have hafter : h.after m =
      if h.world.awaits c then { h with world := (h.world.answer c t).1 } else h := by
    rcases hm with ⟨body, rfl, rfl⟩ | ⟨rfl, rfl⟩ <;> rfl
  have ht : t.completes = true := by
    rcases hm with ⟨body, -, rfl⟩ | ⟨-, rfl⟩ <;> rfl
  rw [hafter]
  split
  · refine ⟨rfl, rfl, fun r hr => ?_⟩
    rw [h.reports_answer c ht] at hr
    rcases List.mem_append.1 hr with hr | hr
    · exact Or.inl hr
    · split at hr
      · cases hr
      · exact Or.inr (List.mem_singleton.1 hr)
  · exact ⟨rfl, rfl, fun r hr => Or.inl hr⟩

/-- A call that is issued now is outstanding. -/
theorem not_completed_after (hs : Sound h.toBooks h.world) (m : Move) (hold : h.world.calls.length ≤ c)
    (hnew : c < (h.after m).world.calls.length) : completed (h.after m).taken c = false := by
  have hx := List.getElem?_eq_getElem hnew
  have hunanswered := (h.extends_after m).fresh c _ hold hx
  have hnot := (sound_after hs m).flights.not_answered hx hunanswered
  rw [Bool.eq_false_iff, ne_eq, completed_iff]
  intro hdone
  apply hnot
  rw [List.filterMap_append]
  exact List.mem_append_left _ hdone

/-- What the tasks so far bring does not depend on calls that are issued now. -/
theorem messages_after (hs : Sound h.toBooks h.world) (m : Move) (s : Nat) :
    (h.after m).taken.flatMap (Task.messages (h.after m).world s) =
      (h.after m).taken.flatMap (Task.messages h.world s) := by
  refine List.flatMap_congr fun t ht => ?_
  refine Task.messages_congr (h.extends_after m).keeps (fun c hc => ?_) s
  have hmem : Once.complete c ∈ (h.after m).taken.filterMap Task.once? :=
    List.mem_filterMap.2 ⟨t, ht, hc⟩
  obtain ⟨x, hx, -⟩ := (sound_after hs m).flights.answered c
    (by rw [List.filterMap_append]; exact List.mem_append_left _ hmem)
  by_cases hold : c < h.world.calls.length
  · exact ⟨_, List.getElem?_eq_getElem hold⟩
  · -- the task would complete a call that is only issued now
    have hopen := not_completed_after hs m (Nat.le_of_not_lt hold) (List.getElem?_eq_some_iff.1 hx).1
    rw [completed_iff.2 hmem] at hopen
    cases hopen

end History

/-! ## Consecutive positions -/

/-- What a call of a socket that queues again carries is consecutive, and everything before it is
acknowledged. -/
def Consecutive (b : Books) (w : World) : Prop :=
  ∀ (c : Nat) (x : Call), w.calls[c]? = some x → (w.socket x.owner).requeue = true →
    ∃ a n, b.carried c = List.range' a n ∧ ∀ p < a, p ∈ b.acked w x.owner

theorem Books.mem_acked {b : Books} {s p : Nat} : p ∈ b.acked w s ↔
    ∃ c x, w.calls[c]? = some x ∧ x.owner = s ∧ succeeded b.taken c = true ∧ p ∈ b.carried c := by
  simp only [Books.acked, List.mem_flatMap, List.mem_filter, World.mem_callsOf]
  constructor
  · rintro ⟨c, ⟨⟨x, hx, hown⟩, hc⟩, hp⟩
    exact ⟨c, x, hx, hown, hc, hp⟩
  · rintro ⟨c, x, hx, hown, hc, hp⟩
    exact ⟨c, ⟨⟨x, hx, hown⟩, hc⟩, hp⟩

/-- What is acknowledged stays so. -/
theorem History.Extends.mem_acked (e : h.Extends k) {s p : Nat} (hp : p ∈ h.acked h.world s) :
    p ∈ k.acked k.world s := by
  obtain ⟨c, x, hx, hown, hc, hp⟩ := Books.mem_acked.1 hp
  obtain ⟨y, hy, hown', -⟩ := e.keeps c x hx
  refine Books.mem_acked.2 ⟨c, y, hy, hown'.trans hown, ?_, ?_⟩
  · obtain ⟨more, hmore⟩ := e.taken
    rw [← hmore, succeeded, List.any_append]
    exact Bool.or_eq_true_iff.2 (Or.inl hc)
  · rwa [e.carried c (List.getElem?_eq_some_iff.1 hx).1]

/-- A call that is outstanding carries what follows the acknowledged positions. -/
theorem Sound.consecutive_of_outstanding {b : Books} (h : Sound b w) {x : Call} (hx : w.calls[c]? = some x)
    (hc : completed b.taken c = false) (hr : (w.socket x.owner).requeue = true) :
    ∃ a n, b.carried c = List.range' a n ∧ ∀ p < a, p ∈ b.acked w x.owner := by
  obtain ⟨older, hof, holder⟩ := h.flights.callsOf_of_flying hx hc
  have hafloat := (Ledger.acked_afloat_of_flying hc hof holder).2
  have hkept := h.ledger.kept h.flights hr
  -- positions are in order: acknowledged ones, those of the call, those in the queue
  rw [hafloat, List.append_assoc, List.range_eq_range', eq_comm, List.range'_eq_append_iff] at hkept
  obtain ⟨a, -, hacked, hrest⟩ := hkept
  rw [eq_comm, List.range'_eq_append_iff] at hrest
  obtain ⟨n, -, hcarried, -⟩ := hrest
  refine ⟨_, n, hcarried, fun p hp => ?_⟩
  rw [hacked, List.mem_range'_1]
  omega

theorem consecutive_after (hs : Sound h.toBooks h.world) (hc : Consecutive h.toBooks h.world) (m : Move) :
    Consecutive (h.after m).toBooks (h.after m).world := by
  have e := h.extends_after m
  have hs' := sound_after hs m
  intro c y hy hr
  by_cases hlt : c < h.world.calls.length
  · obtain ⟨x, hx⟩ : ∃ x, h.world.calls[c]? = some x := ⟨_, List.getElem?_eq_getElem hlt⟩
    obtain ⟨z, hz, hown, -⟩ := e.keeps c x hx
    obtain rfl : z = y := Option.some.inj (hz.symm.trans hy)
    rw [hown, e.requeue x.owner (hs.flights.owned c x hx)] at hr
    obtain ⟨a, n, hcarried, hacked⟩ := hc c x hx hr
    refine ⟨a, n, (e.carried c hlt).trans hcarried, fun p hp => ?_⟩
    rw [hown]
    exact e.mem_acked (hacked p hp)
  · -- the call is new, so nobody has answered it
    have hopen := History.not_completed_after hs m (Nat.le_of_not_lt hlt)
      (List.getElem?_eq_some_iff.1 hy).1
    exact hs'.consecutive_of_outstanding hy hopen hr

theorem consecutive_run (moves : List Move) :
    Consecutive (History.run moves).toBooks (History.run moves).world := by
  induction moves using List.reverseRecOn with
  | nil => exact fun c x hx => by cases hx
  | append_singleton more m ih =>
    rw [History.run_concat]
    exact consecutive_after (sound_run more) ih m

end PollSocket.Socket
