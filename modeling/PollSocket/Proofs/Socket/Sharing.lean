import PollSocket.Proofs.Socket.Dispatch
import PollSocket.Proofs.Socket.Stacks

set_option autoImplicit false

/-!
# Sockets that share a loop

Each socket of an open loop lives as if it were alone on its own loop. `alone` makes of a run the run of
one of its sockets: its creation, its operations, the completions of its calls, the acts of its handlers,
and the steps that are its own, in their order. In that run the socket is socket 0, and its calls are
counted among themselves (`rank`).

The world of that run is what is left of the shared one for the socket (`Alone`): its own calls, tasks and
duties. Tasks of the socket keep this by what they do in both worlds, and tasks of other sockets because
they leave nothing of it.
-/

namespace PollSocket.Socket

variable {x : Call} {d : Duty} {event : Event} {calls : List Call}
  {acts duties rest : List Duty} {moves : List Move} {loop : Loop Task} {c r ran s : Nat}
  {inside : Option Nat} {t t' : Task} {v' w : World}

/-! ## The calls of one socket -/

/-- Socket `s` owns the call; alone it is socket 0. -/
def Call.solo? (s : Nat) (x : Call) : Option Call :=
  if x.owner = s then some { x with owner := 0 } else none

/-- Owners of the calls, oldest first. -/
def World.owners (w : World) : List Nat := w.calls.map (·.owner)

/-- Number of calls of socket `s` before call `c`. -/
def rank (s : Nat) (owners : List Nat) (c : Nat) : Nat := (owners.take c).count s

theorem solo?_of_owner (h : x.owner = s) : x.solo? s = some { x with owner := 0 } := if_pos h

theorem solo?_of_ne (h : x.owner ≠ s) : x.solo? s = none := if_neg h

theorem length_filterMap_solo? (s : Nat) (calls : List Call) :
    (calls.filterMap (Call.solo? s)).length = (calls.map (·.owner)).count s := by
  induction calls with
  | nil => rfl
  | cons x more ih =>
    by_cases hx : x.owner = s
    · rw [List.filterMap_cons_some (solo?_of_owner hx), List.length_cons, ih, List.map_cons, hx,
        List.count_cons_self]
    · rw [List.filterMap_cons_none (solo?_of_ne hx), ih, List.map_cons,
        List.count_cons_of_ne fun h => hx h]

/-- The calls before and after a call. -/
theorem split_calls (hx : calls[c]? = some x) : ∃ front back, calls = front ++ x :: back ∧ c = front.length := by
  obtain ⟨hc, rfl⟩ := List.getElem?_eq_some_iff.1 hx
  refine ⟨calls.take c, calls.drop (c + 1), ?_, by rw [List.length_take, Nat.min_eq_left hc.le]⟩
  rw [List.getElem_cons_drop, List.take_append_drop]

theorem rank_split (s : Nat) (front back : List Call) :
    rank s ((front ++ back).map (·.owner)) front.length = (front.filterMap (Call.solo? s)).length := by
  rw [rank, List.map_append, List.take_left' (List.length_map _), length_filterMap_solo?]

theorem modify_split (front : List Call) (x : Call) (back : List Call) (f : Call → Call) :
    (front ++ x :: back).modify front.length f = front ++ f x :: back := by
  induction front with
  | nil => rfl
  | cons y more ih => exact congrArg (y :: ·) ih

/-- A call of the socket is found by its rank. -/
theorem getElem?_filterMap_solo? (hx : calls[c]? = some x) (hs : x.owner = s) :
    (calls.filterMap (Call.solo? s))[rank s (calls.map (·.owner)) c]? =
      some { x with owner := 0 } := by
  obtain ⟨front, back, rfl, rfl⟩ := split_calls hx
  rw [rank_split, List.filterMap_append, List.filterMap_cons_some (solo?_of_owner hs),
    List.getElem?_append_right le_rfl, Nat.sub_self, List.getElem?_cons_zero]

/-- A change of a call of the socket is a change of the call with its rank. -/
theorem filterMap_solo?_modify {f : Call → Call} (hx : calls[c]? = some x) (hs : x.owner = s)
    (howner : ∀ y, (f y).owner = y.owner) (hf : ∀ y, f { y with owner := 0 } = { f y with owner := 0 }) :
    (calls.modify c f).filterMap (Call.solo? s) =
      (calls.filterMap (Call.solo? s)).modify (rank s (calls.map (·.owner)) c) f := by
  obtain ⟨front, back, rfl, rfl⟩ := split_calls hx
  rw [rank_split, modify_split, List.filterMap_append, List.filterMap_append,
    List.filterMap_cons_some (solo?_of_owner ((howner x).trans hs)),
    List.filterMap_cons_some (solo?_of_owner hs), modify_split, hf]

/-- A change of a call of another socket is none. -/
theorem filterMap_solo?_modify_of_ne {f : Call → Call} (hne : ∀ x, calls[c]? = some x → x.owner ≠ s)
    (howner : ∀ y, (f y).owner = y.owner) :
    (calls.modify c f).filterMap (Call.solo? s) = calls.filterMap (Call.solo? s) := by
  cases hx : calls[c]? with
  | none => rw [List.modify_eq_self (List.getElem?_eq_none_iff.1 hx)]
  | some x =>
    have hs := hne x hx
    obtain ⟨front, back, rfl, rfl⟩ := split_calls hx
    rw [modify_split, List.filterMap_append, List.filterMap_append,
      List.filterMap_cons_none (solo?_of_ne hs),
      List.filterMap_cons_none (solo?_of_ne (by rw [howner]; exact hs))]

theorem owners_modify {f : Call → Call} (howner : ∀ y, (f y).owner = y.owner) (c : Nat) :
    (calls.modify c f).map (·.owner) = calls.map (·.owner) := by
  induction calls generalizing c with
  | nil => rw [List.modify_nil]
  | cons y more ih =>
    cases c with
    | zero => rw [List.modify_zero_cons, List.map_cons, List.map_cons, howner]
    | succ c => rw [List.modify_succ_cons, List.map_cons, List.map_cons, ih]

theorem owner_of_owners {w : World} (hc : w.owners[c]? = some s) : ∃ x, w.calls[c]? = some x ∧ x.owner = s := by
  simpa [World.owners] using hc

theorem World.owners_getElem? (w : World) (c : Nat) : w.owners[c]? = w.calls[c]?.map (·.owner) := List.getElem?_map

theorem rank_append {owners : List Nat} (hc : c ≤ owners.length) (more : List Nat) :
    rank s (owners ++ more) c = rank s owners c := by
  unfold rank
  rw [List.take_append_of_le_length hc]

/-! ## What is left for one socket -/

/-- A task of socket `s`; alone it is a task of socket 0. -/
def Task.solo? (s : Nat) (owners : List Nat) : Task → Option Task
  | .establish r => if r = s then some (.establish 0) else none
  | .send r text => if r = s then some (.send 0 text) else none
  | .close r => if r = s then some (.close 0) else none
  | .closeWhenDrained r => if r = s then some (.closeWhenDrained 0) else none
  | .handle r slot script => if r = s then some (.handle 0 slot script) else none
  | .succeed c body => if owners[c]? = some s then some (.succeed (rank s owners c) body) else none
  | .fail c => if owners[c]? = some s then some (.fail (rank s owners c)) else none

/-- The call that a task completes. -/
def Task.call? : Task → Option Nat
  | .succeed c _ => some c
  | .fail c => some c
  | _ => none

/-- A duty without the number of tasks that a run has taken. -/
def Duty.uncounted : Duty → Duty
  | .run _ inside => .run 0 inside
  | d => d

/-- A duty of socket `s`, or a run of the program; alone it is a duty of socket 0. -/
def Duty.solo? (s : Nat) : Duty → Option Duty
  | .run _ none => some (.run 0 none)
  | .run _ (some r) => if r = s then some (.run 0 (some 0)) else none
  | .emit r event => if r = s then some (.emit 0 event) else none
  | .act r data a => if r = s then some (.act 0 data a) else none
  | .leave r event => if r = s then some (.leave 0 event) else none
  | .dispatch r messages => if r = s then some (.dispatch 0 messages) else none
  | .resume r => if r = s then some (.resume 0) else none
  | .begin r => if r = s then some (.begin 0) else none
  | .closeIfClosing r => if r = s then some (.closeIfClosing 0) else none

/-- The mark of a socket, counted among its own calls. -/
def relabel (s : Nat) (owners : List Nat) (x : Socket) : Socket :=
  { x with inflight := x.inflight.map (rank s owners) }

/-- World `v` is what is left of world `w`, whose loop is open, for socket `s`. -/
structure Alone (s : Nat) (w v : World) : Prop where
  opened : w.loop.closed = false
  loop : v.loop = { queue := w.loop.queue.filterMap (Task.solo? s w.owners), closed := false }
  sockets : v.sockets = (w.sockets[s]?.map (relabel s w.owners)).toList
  calls : v.calls = w.calls.filterMap (Call.solo? s)
  agenda : v.agenda.map Duty.uncounted = w.agenda.filterMap (Duty.solo? s)
  fault : v.fault = w.fault
  /-- Marks and completions are those of calls that were issued. -/
  marked : ∀ r c, (w.socket r).inflight = some c → w.owners[c]? = some r
  known : ∀ t ∈ w.loop.queue, ∀ c, t.call? = some c → c < w.owners.length

theorem Task.solo?_append {owners : List Nat} (h : ∀ c, t.call? = some c → c < owners.length)
    (more : List Nat) : t.solo? s (owners ++ more) = t.solo? s owners := by
  cases t with
  | succeed c | fail c =>
    have hc := h c rfl
    simp only [Task.solo?, List.getElem?_append_left hc, rank_append hc.le]
  | _ => rfl

theorem solo?_duty (s : Nat) (j : Job) : (j.duty s).solo? s = some (j.duty 0) := by
  cases j <;> exact if_pos rfl

theorem solo?_duty_of_ne (h : r ≠ s) (j : Job) : (j.duty r).solo? s = none := by
  cases j <;> exact if_neg h

theorem filterMap_jobs (s : Nat) (jobs : List Job) :
    (jobs.map (Job.duty s)).filterMap (Duty.solo? s) = jobs.map (Job.duty 0) := by
  induction jobs with
  | nil => rfl
  | cons j more ih => rw [List.map_cons, List.filterMap_cons_some (solo?_duty s j), ih, List.map_cons]

theorem filterMap_jobs_of_ne (h : r ≠ s) (jobs : List Job) :
    (jobs.map (Job.duty r)).filterMap (Duty.solo? s) = [] := by
  rw [List.filterMap_eq_nil_iff]
  intro d hd
  obtain ⟨j, -, rfl⟩ := List.mem_map.1 hd
  exact solo?_duty_of_ne h j

theorem map_uncounted_jobs (s : Nat) (jobs : List Job) :
    (jobs.map (Job.duty s)).map Duty.uncounted = jobs.map (Job.duty s) := by
  rw [List.map_map]
  apply List.map_congr_left
  intro j _
  cases j <;> rfl

theorem map_uncounted_acts (s : Nat) (data : String) (script : Script) :
    (script.map (Duty.act 0 data)).map Duty.uncounted =
      (script.map (Duty.act s data)).filterMap (Duty.solo? s) := by
  induction script with
  | nil => rfl
  | cons a more ih =>
    rw [List.map_cons, List.map_cons, List.map_cons,
      List.filterMap_cons_some (show (Duty.act s data a).solo? s = _ from if_pos rfl), ← ih]
    rfl

theorem filterMap_acts_of_ne (hr : r ≠ s) (data : String) (script : Script) :
    (script.map (Duty.act r data)).filterMap (Duty.solo? s) = [] := by
  rw [List.filterMap_eq_nil_iff]
  intro d hd
  obtain ⟨a, -, rfl⟩ := List.mem_map.1 hd
  exact if_neg hr

namespace Alone

variable {v : World}

section

variable (h : Alone s w v)
include h

theorem socket : v.socket 0 = relabel s w.owners (w.socket s) := by
  unfold World.socket
  rw [h.sockets, List.getD_eq_getElem?_getD, List.getD_eq_getElem?_getD]
  cases w.sockets[s]? <;> rfl

/-- Agendas with the same left for the socket; notes and counts are not looked at. -/
theorem replan {w' : World} (hw : w' = { w with agenda := w'.agenda, journal := w'.journal, ran := w'.ran })
    (hv : v' = { v with agenda := v'.agenda, journal := v'.journal, ran := v'.ran })
    (hagenda : v'.agenda.map Duty.uncounted = w'.agenda.filterMap (Duty.solo? s)) : Alone s w' v' := by
  rw [hw, hv]
  exact { h with agenda := hagenda }

theorem note (n n' : Note) : Alone s (w.note n) (v.note n') := h.replan rfl rfl h.agenda

theorem note_left (n : Note) : Alone s (w.note n) v := h.replan rfl rfl h.agenda

/-- More duties on both agendas. -/
theorem push {duties' : List Duty} (hduties : duties'.map Duty.uncounted = duties.filterMap (Duty.solo? s)) :
    Alone s (w.push duties) (v.push duties') := by
  apply h.replan rfl rfl
  show (duties' ++ v.agenda).map Duty.uncounted = (duties ++ w.agenda).filterMap (Duty.solo? s)
  rw [List.map_append, List.filterMap_append, hduties, h.agenda]

/-- Duties of other sockets leave nothing on the agenda of this one. -/
theorem push_other (hduties : duties.filterMap (Duty.solo? s) = []) : Alone s (w.push duties) v := by
  have hpushed : Alone s (w.push duties) (v.push []) := h.push hduties.symm
  exact hpushed

theorem marked_update {f : Socket → Socket}
    (hf : ∀ c, (f (w.socket r)).inflight = some c → w.owners[c]? = some r) (q c : Nat)
    (hc : ((w.update r f).socket q).inflight = some c) : w.owners[c]? = some q := by
  rw [World.socket_update] at hc
  split at hc
  next hq =>
    rw [hq.1]
    exact hf c hc
  next => exact h.marked q c hc

/-- The socket changes in both worlds. -/
theorem update {f g : Socket → Socket} (hf : ∀ c, (f (w.socket s)).inflight = some c → w.owners[c]? = some s)
    (hg : ∀ x, g (relabel s w.owners x) = relabel s w.owners (f x)) :
    Alone s (w.update s f) (v.update 0 g) where
  __ := h
  sockets := by
    show v.sockets.modify 0 g = ((w.sockets.modify s f)[s]?.map _).toList
    rw [h.sockets, List.getElem?_modify]
    cases w.sockets[s]? with
    | none => rfl
    | some x =>
      simp only [Option.map_some, Option.toList_some, List.modify_zero_cons]
      rw [hg]
      rfl
  marked := h.marked_update hf

/-- Another socket changes. -/
theorem update_of_ne (hr : r ≠ s) {f : Socket → Socket}
    (hf : ∀ c, (f (w.socket r)).inflight = some c → w.owners[c]? = some r) : Alone s (w.update r f) v where
  __ := h
  sockets := by
    rw [h.sockets]
    show _ = ((w.sockets.modify r f)[s]?.map _).toList
    rw [List.getElem?_modify]
    cases w.sockets[s]? with
    | none => rfl
    | some x =>
      simp only [if_neg hr]
      rfl
  marked := h.marked_update hf

theorem lt_of_marked (hc : (w.socket r).inflight = some c) : c < w.owners.length :=
  (List.getElem?_eq_some_iff.1 (h.marked r c hc)).1

/-- A call more: ranks of the calls before it stay. -/
theorem grow (x : Call) :
    Alone s { w with calls := w.calls ++ [x] } { v with calls := v.calls ++ (x.solo? s).toList } := by
  have howners : ({ w with calls := w.calls ++ [x] } : World).owners = w.owners ++ [x.owner] := by
    unfold World.owners
    rw [List.map_append]
    rfl
  refine { h with loop := ?_, sockets := ?_, calls := ?_, marked := ?_, known := ?_ }
  · rw [howners, h.loop]
    congr 1
    apply List.filterMap_congr
    intro t ht
    exact (Task.solo?_append (h.known t ht) _).symm
  · rw [howners, h.sockets]
    show (w.sockets[s]?.map _).toList = (w.sockets[s]?.map _).toList
    cases hsocket : w.sockets[s]? with
    | none => rfl
    | some y =>
      have hy : w.socket s = y := by
        rw [World.socket, List.getD_eq_getElem?_getD, hsocket]
        rfl
      simp only [Option.map_some, relabel]
      cases hmark : y.inflight with
      | none => rfl
      | some c =>
        rw [← hy] at hmark
        rw [Option.map_some, Option.map_some, rank_append (h.lt_of_marked hmark).le]
  · show v.calls ++ _ = (w.calls ++ [x]).filterMap (Call.solo? s)
    rw [h.calls]
    cases hx : x.solo? s <;> simp [hx]
  · intro r c hc
    rw [howners, List.getElem?_append_left (h.lt_of_marked hc)]
    exact h.marked r c hc
  · intro t ht c hc
    rw [howners, List.length_append]
    exact Nat.lt_add_right _ (h.known t ht c hc)

/-- A call is flagged, one of the socket or another one. -/
theorem modify {f : Call → Call} (howner : ∀ y, (f y).owner = y.owner) (hv : v' = { v with calls := v'.calls })
    (hcalls : v'.calls = (w.calls.modify c f).filterMap (Call.solo? s)) :
    Alone s { w with calls := w.calls.modify c f } v' := by
  have howners : ({ w with calls := w.calls.modify c f } : World).owners = w.owners :=
    owners_modify howner c
  rw [hv]
  refine { h with calls := hcalls, loop := ?_, sockets := ?_, marked := ?_, known := ?_ }
  all_goals rw [howners]
  exacts [h.loop, h.sockets, h.marked, h.known]

/-- A call of the socket is found in both worlds. -/
theorem call (hx : w.calls[c]? = some x) (hs : x.owner = s) :
    v.calls[rank s w.owners c]? = some { x with owner := 0 } := by
  rw [h.calls]
  exact getElem?_filterMap_solo? hx hs

theorem modify_own (hc : w.owners[c]? = some s) {f : Call → Call}
    (howner : ∀ y, (f y).owner = y.owner) (hf : ∀ y, f { y with owner := 0 } = { f y with owner := 0 }) :
    Alone s { w with calls := w.calls.modify c f }
      { v with calls := v.calls.modify (rank s w.owners c) f } := by
  apply h.modify howner rfl
  obtain ⟨x, hx, hs⟩ := owner_of_owners hc
  rw [filterMap_solo?_modify hx hs howner hf, h.calls]
  rfl

theorem modify_other (hc : w.owners[c]? ≠ some s) {f : Call → Call}
    (howner : ∀ y, (f y).owner = y.owner) : Alone s { w with calls := w.calls.modify c f } v := by
  apply h.modify howner rfl
  rw [filterMap_solo?_modify_of_ne _ howner, h.calls]
  intro x hx hs
  apply hc
  rw [w.owners_getElem?, hx, ← hs]
  rfl

theorem abort (hc : w.owners[c]? = some s) : Alone s (w.abort c) (v.abort (rank s w.owners c)) := by
  have hflagged := h.modify_own hc (f := fun x => { x with aborted := true }) (fun _ => rfl) fun _ => rfl
  rw [w.abort_eq, v.abort_eq]
  exact hflagged.replan rfl rfl h.agenda

theorem abort_of_ne (hc : w.owners[c]? ≠ some s) : Alone s (w.abort c) v := by
  have hflagged := h.modify_other hc (f := fun x => { x with aborted := true }) fun _ => rfl
  rw [w.abort_eq]
  exact hflagged.replan rfl rfl h.agenda

end

/-- The socket is alike in both worlds. -/
theorem likeness (s : Nat) : Likeness (Alone s) s 0 where
  view h := ⟨_, _, h.socket⟩
  unmarked {w v} h := by
    rw [h.socket]
    show (w.socket s).inflight.map _ = none ↔ _
    rw [Option.map_eq_none_iff]
  update {w v} h f hf := by
    apply h.update
    · intro c hc
      rw [hf.inflight] at hc
      exact h.marked s c hc
    · intro x
      calc f (relabel s w.owners x)
        _ = { f x with handlers := x.handlers, inflight := x.inflight.map (rank s w.owners) } :=
            hf x x.handlers _
        _ = { f x with handlers := (f x).handlers,
                       inflight := (f x).inflight.map (rank s w.owners) } := by
            rw [hf.handlers, hf.inflight]
        _ = relabel s w.owners (f x) := rfl
  unmark h := by
    apply h.update
    · intro c hc
      cases hc
    · intro x
      rfl
  fault h := h.fault
  log h _ _ _ := h.note _ _
  push h jobs _ := h.push (by rw [map_uncounted_jobs, filterMap_jobs])
  issue {w v} h body batch := by
    have hgrown := h.grow (w.fresh s body batch)
    have hfresh : v.fresh 0 body batch = { w.fresh s body batch with owner := 0 } := by
      unfold World.fresh
      rw [h.socket]
      rfl
    have hsolo : (w.fresh s body batch).solo? s = some (v.fresh 0 body batch) := by
      rw [hfresh]
      exact solo?_of_owner rfl
    rw [hsolo] at hgrown
    have hrank : rank s (w.owners ++ [s]) w.calls.length = v.calls.length := by
      have hlength : w.calls.length = w.owners.length := (List.length_map _).symm
      rw [hlength, rank_append le_rfl, rank, List.take_length, h.calls, length_filterMap_solo?]
      rfl
    have howners : ({ w with calls := w.calls ++ [w.fresh s body batch] } : World).owners =
        w.owners ++ [s] := by
      unfold World.owners
      rw [List.map_append]
      rfl
    have hmarked := hgrown.update (f := fun x => { x with inflight := some w.calls.length })
      (g := fun x => { x with inflight := some v.calls.length }) (by
        intro c hc
        cases hc
        rw [howners, show w.calls.length = w.owners.length from (List.length_map _).symm]
        exact List.getElem?_concat_length) (by
        intro x
        rw [howners]
        unfold relabel
        rw [Option.map_some, hrank])
    exact hmarked.note _ _
  release {w v} h := by
    have hsame : (v.socket 0).inflight = (w.socket s).inflight.map (rank s w.owners) := by
      rw [h.socket]
      rfl
    cases hmark : (w.socket s).inflight with
    | none =>
      rw [hmark] at hsame
      rw [World.release_of_none hmark, World.release_of_none hsame]
      exact h
    | some c =>
      rw [hmark] at hsame
      rw [World.release_of_some hmark, World.release_of_some hsame]
      apply (h.abort (h.marked s c hmark)).update
      · intro d hd
        cases hd
      · intro x
        rfl

/-- Other sockets leave nothing of it. -/
theorem kept (hr : r ≠ s) (v : World) : Kept (fun w => Alone s w v) r where
  update {w} h f hf := by
    apply h.update_of_ne hr
    intro c hc
    rcases hf (w.socket r) with hnone | hsame
    · cases hnone.symm.trans hc
    · rw [hsame] at hc
      exact h.marked r c hc
  log h _ _ _ := h.note_left _
  push {w} h jobs _ := by
    apply h.push_other
    exact filterMap_jobs_of_ne hr jobs
  issue {w} h body batch := by
    have hgrown := h.grow (w.fresh r body batch)
    rw [solo?_of_ne (show (w.fresh r body batch).owner ≠ s from hr), Option.toList_none,
      List.append_nil] at hgrown
    have hmarked := hgrown.update_of_ne hr (f := fun x => { x with inflight := some w.calls.length }) (by
      intro c hc
      cases hc
      show (List.map (·.owner) (w.calls ++ [w.fresh r body batch]))[w.calls.length]? = some r
      rw [List.getElem?_map, List.getElem?_concat_length]
      rfl)
    exact hmarked.note_left _
  release {w} h := by
    unfold World.release
    cases hmark : (w.socket r).inflight with
    | none => exact h
    | some c =>
      have howner := h.marked r c hmark
      apply (h.abort_of_ne (by rw [howner]; simpa using hr)).update_of_ne hr
      intro d hd
      cases hd

/-! ### Tasks -/

theorem postOr_eq (hopen : w.loop.closed = false) (t : Task) (refused : Failure → Note) :
    w.postOr t refused = (w.post t).1 := by
  simp only [World.postOr, World.post, Loop.post, hopen, Bool.false_eq_true, if_false, if_true]

theorem solo?_of_host? (ht : t.host? w = some s) : ∃ t', t.solo? s w.owners = some t' := by
  cases t with
  | succeed c | fail c => exact ⟨_, if_pos ((w.owners_getElem? c).trans ht)⟩
  | _ =>
    cases ht
    exact ⟨_, if_pos rfl⟩

theorem solo?_of_host?_ne (ht : t.host? w ≠ some s) : t.solo? s w.owners = none := by
  cases t with
  | succeed | fail =>
    apply if_neg
    rw [w.owners_getElem?]
    exact ht
  | _ =>
    apply if_neg
    rintro rfl
    exact ht rfl

section

variable (h : Alone s w v)
include h

/-- A task of the socket is executed in both worlds. -/
theorem execute (ht : t.solo? s w.owners = some t') : Alone s (w.execute t) (v.execute t') := by
  cases t with
  | establish r | send r text | close r | closeWhenDrained r =>
    obtain ⟨rfl, ⟨⟩⟩ := Option.ite_none_right_eq_some.1 ht
    exact (likeness r).execute h (by constructor)
  | handle r slot script =>
    obtain ⟨rfl, ⟨⟩⟩ := Option.ite_none_right_eq_some.1 ht
    apply h.update
    · exact h.marked r
    · intro x
      rfl
  | succeed c body =>
    obtain ⟨howner, ⟨⟩⟩ := Option.ite_none_right_eq_some.1 ht
    obtain ⟨x, hx, hs⟩ := owner_of_owners howner
    exact (likeness s).execute h (.succeed hx (h.call hx hs) hs rfl rfl body)
  | fail c =>
    obtain ⟨howner, ⟨⟩⟩ := Option.ite_none_right_eq_some.1 ht
    obtain ⟨x, hx, hs⟩ := owner_of_owners howner
    exact (likeness s).execute h (.fail hx (h.call hx hs) hs rfl rfl rfl)

theorem execute_of_ne (ht : t.host? w ≠ some s) : Alone s (w.execute t) v := by
  cases hhost : t.host? w with
  | none =>
    rw [World.execute_of_host?_none hhost]
    exact h
  | some r =>
    have hr : r ≠ s := by
      rintro rfl
      exact ht hhost
    exact (kept hr v).execute h hhost

section

variable (hknown : ∀ c, t.call? = some c → c < w.owners.length)
include hknown

/-- A task of the socket is posted on both loops, one of another socket on one. -/
theorem post : Alone s (w.post t).1 { v with loop := { v.loop with
      queue := v.loop.queue ++ (t.solo? s w.owners).toList } } := by
  have hposted : (w.loop.post t).1 = { w.loop with queue := w.loop.queue ++ [t] } := by
    simp only [Loop.post, h.opened, Bool.false_eq_true, if_false]
  refine { h with opened := ?_, loop := ?_, known := ?_ }
  · show (w.loop.post t).1.closed = false
    rw [hposted]
    exact h.opened
  · show ({ v.loop with queue := _ } : Loop Task) =
      { queue := (w.loop.post t).1.queue.filterMap (Task.solo? s w.owners), closed := false }
    rw [hposted, h.loop]
    cases ht : t.solo? s w.owners <;> simp [ht]
  · intro u hu
    change u ∈ (w.loop.post t).1.queue at hu
    rw [hposted, List.mem_append, List.mem_singleton] at hu
    rcases hu with hu | rfl
    · exact h.known u hu
    · exact hknown

theorem post_own (ht : t.solo? s w.owners = some t') : Alone s (w.post t).1 (v.post t').1 := by
  have hposted := h.post hknown
  rw [ht] at hposted
  have hv : (v.post t').1 = { v with loop := { v.loop with queue := v.loop.queue ++ [t'] } } := by
    have hopen : v.loop.closed = false := by rw [h.loop]
    simp only [World.post, Loop.post, hopen, Bool.false_eq_true, if_false]
  rw [hv]
  exact hposted

theorem post_of_ne (ht : t.solo? s w.owners = none) : Alone s (w.post t).1 v := by
  have hposted := h.post hknown
  rw [ht, Option.toList_none, List.append_nil] at hposted
  exact hposted

end

theorem opened_alone : v.loop.closed = false := by rw [h.loop]

end

/-! ### Acts -/

end Alone

/-- Unwinding does not count. -/
theorem unwind_uncounted (agenda : List Duty) :
    World.unwind (agenda.map Duty.uncounted) =
      (World.unwind agenda).map fun p => (p.1, p.2.1, p.2.2.map Duty.uncounted) := by
  induction agenda with
  | nil => rfl
  | cons d rest ih =>
    cases d with
    | leave s event => rfl
    | _ => exact ih

/-- The acts above the end of a handler are its own. -/
theorem Stacked.own_acts (h : Stacked (acts ++ .leave s event :: rest))
    (hacts : ∀ d ∈ acts, d.isAct = true) : ∀ d ∈ acts, ∃ a, d = .act s event.data a := by
  induction acts with
  | nil =>
    intro d hd
    cases hd
  | cons d more ih =>
    have hmore := ih h.tail fun e he => hacts e (List.mem_cons_of_mem d he)
    obtain ⟨r, data, a, rfl⟩ := Duty.eq_act (hacts d List.mem_cons_self)
    have hfirst : ∃ b, Duty.act r data a = .act s event.data b := by
      cases more with
      | nil =>
        rcases h.head _ rfl with ⟨b, hb⟩ | ⟨e, he, hdata⟩
        · cases hb
        · cases he
          exact ⟨a, by rw [hdata]⟩
      | cons e _ =>
        obtain ⟨b, rfl⟩ := hmore e List.mem_cons_self
        rcases h.head _ rfl with ⟨c, hc⟩ | ⟨e, he, -⟩
        · cases hc
          exact ⟨a, rfl⟩
        · cases he
    exact List.forall_mem_cons.2 ⟨hfirst, hmore⟩

/-- Unwinding a handler of the socket. -/
theorem unwind_solo (hacts : ∀ d ∈ acts, ∃ a, d = .act s event.data a) (rest : List Duty) :
    World.unwind ((acts ++ .leave s event :: rest).filterMap (Duty.solo? s)) =
      some (0, event, rest.filterMap (Duty.solo? s)) := by
  induction acts with
  | nil =>
    rw [List.nil_append, List.filterMap_cons_some (show (Duty.leave s event).solo? s = _ from if_pos rfl)]
    rfl
  | cons d more ih =>
    obtain ⟨a, rfl⟩ := hacts d List.mem_cons_self
    rw [List.cons_append,
      List.filterMap_cons_some (show (Duty.act s event.data a).solo? s = _ from if_pos rfl)]
    exact ih fun e he => hacts e (List.mem_cons_of_mem _ he)

namespace Alone

variable {v : World}

variable (h : Alone s w v)
include h

section

variable (hstacked : Stacked w.agenda) (hnested : Nested w.agenda)
include hstacked hnested

/-- A handler of the socket throws in both worlds. -/
theorem throw (hframe : frame? w.agenda = some (s, event)) (value : Thrown) :
    Alone s (w.throw value) (v.throw value) := by
  obtain ⟨acts, rest, hagenda, hacts, hunwind⟩ := unwind_of_frame? hnested hframe
  have hown : ∀ d ∈ acts, ∃ a, d = Duty.act s event.data a := by
    rw [hagenda] at hstacked
    exact hstacked.own_acts hacts
  have hv : World.unwind (v.agenda.map Duty.uncounted) =
      some (0, event, rest.filterMap (Duty.solo? s)) := by
    rw [h.agenda, hagenda]
    exact unwind_solo hown rest
  rw [unwind_uncounted] at hv
  obtain ⟨⟨r, e, rest'⟩, hunwind', heq⟩ := Option.map_eq_some_iff.1 hv
  simp only [Prod.mk.injEq] at heq
  obtain ⟨rfl, rfl, hrest⟩ := heq
  unfold World.throw
  rw [hunwind, hunwind']
  have hleft : Alone s { w with agenda := rest } { v with agenda := rest' } :=
    h.replan rfl rfl hrest
  have hcry : ∀ cause, [Duty.emit 0 (.error cause)].map Duty.uncounted =
      [Duty.emit s (.error cause)].filterMap (Duty.solo? s) := by
    intro cause
    rw [List.filterMap_cons_some (show (Duty.emit s (.error cause)).solo? s = _ from if_pos rfl)]
    rfl
  cases e with
  | opened | message => exact hleft.push (hcry _)
  | error | closed => exact hleft.note _ _

/-- A handler of another socket throws. -/
theorem throw_of_ne (hr : r ≠ s)
    (hframe : frame? w.agenda = some (r, event)) (value : Thrown) : Alone s (w.throw value) v := by
  obtain ⟨acts, rest, hagenda, hacts, hunwind⟩ := unwind_of_frame? hnested hframe
  have hown : ∀ d ∈ acts, ∃ a, d = Duty.act r event.data a := by
    rw [hagenda] at hstacked
    exact hstacked.own_acts hacts
  have hrest : v.agenda.map Duty.uncounted = rest.filterMap (Duty.solo? s) := by
    have hnone : acts.filterMap (Duty.solo? s) = [] := by
      rw [List.filterMap_eq_nil_iff]
      intro d hd
      obtain ⟨a, rfl⟩ := hown d hd
      exact if_neg hr
    rw [h.agenda, hagenda, List.filterMap_append, hnone, List.nil_append,
      List.filterMap_cons_none (show (Duty.leave r event).solo? s = none from if_neg hr)]
  have hleft : Alone s { w with agenda := rest } v := h.replan rfl rfl hrest
  unfold World.throw
  rw [hunwind]
  cases event with
  | opened | message =>
    apply hleft.push_other
    exact List.filterMap_cons_none (show (Duty.emit r _).solo? s = none from if_neg hr)
  | error | closed => exact hleft.note_left _

theorem perform (hframe : frame? w.agenda = some (s, event)) (data : String) {a : Act} (ha : a ≠ .closeLoop) :
    Alone s (w.perform s data a) (v.perform 0 data a) := by
  have hpost : ∀ {t t' : Task} (refused refused' : Failure → Note), t.call? = none →
      t.solo? s w.owners = some t' → Alone s (w.postOr t refused) (v.postOr t' refused') := by
    intro t t' refused refused' hcall ht
    rw [postOr_eq h.opened, postOr_eq h.opened_alone]
    exact h.post_own (by simp [hcall]) ht
  cases a with
  | closeLoop => exact absurd rfl ha
  | throw value => exact h.throw hstacked hnested hframe value
  | replace | remove => exact h.post_own (by simp [Task.call?]) (if_pos rfl)
  | whenData expected script =>
    simp only [World.perform]
    split
    · exact h.push (map_uncounted_acts s data script)
    · exact h
  | runLoop =>
    apply h.push
    rw [List.filterMap_cons_some (show (Duty.run 0 (some s)).solo? s = _ from if_pos rfl)]
    rfl
  | report => exact h.note _ _
  | _ => exact hpost _ _ rfl (if_pos rfl)

theorem perform_of_ne (hr : r ≠ s)
    (hframe : frame? w.agenda = some (r, event)) (data : String) {a : Act} (ha : a ≠ .closeLoop) :
    Alone s (w.perform r data a) v := by
  have hpost : ∀ {t : Task} (refused : Failure → Note), t.call? = none →
      t.solo? s w.owners = none → Alone s (w.postOr t refused) v := by
    intro t refused hcall ht
    rw [postOr_eq h.opened]
    exact h.post_of_ne (by simp [hcall]) ht
  cases a with
  | closeLoop => exact absurd rfl ha
  | throw value => exact h.throw_of_ne hstacked hnested hr hframe value
  | replace | remove => exact h.post_of_ne (by simp [Task.call?]) (if_neg hr)
  | whenData expected script =>
    simp only [World.perform]
    split
    · exact h.push_other (filterMap_acts_of_ne hr data script)
    · exact h
  | runLoop =>
    apply h.push_other
    exact List.filterMap_cons_none (show (Duty.run 0 (some r)).solo? s = none from if_neg hr)
  | report => exact h.note_left _
  | _ => exact hpost _ rfl (if_neg hr)

end

/-! ### Steps -/

/-- The first duty of the agenda, and what it is alone. -/
theorem pop {d' : Duty} (hagenda : w.agenda = d :: rest) (hd : d.solo? s = some d') :
    ∃ e rest', v.agenda = e :: rest' ∧ e.uncounted = d' ∧
      rest'.map Duty.uncounted = rest.filterMap (Duty.solo? s) := by
  have hv := h.agenda
  rw [hagenda, List.filterMap_cons_some hd] at hv
  obtain ⟨e, rest', hcons, he, hrest⟩ := List.map_eq_cons_iff.1 hv
  exact ⟨e, rest', hcons, he, hrest⟩

/-- A duty of the socket that is no run is the same in both worlds. -/
theorem pop_same {d' : Duty} (hagenda : w.agenda = d :: rest) (hd : d.solo? s = some d')
    (hrun : d'.isRun = false) : ∃ rest', v.agenda = d' :: rest' ∧
      rest'.map Duty.uncounted = rest.filterMap (Duty.solo? s) := by
  obtain ⟨e, rest', hv, he, hrest⟩ := h.pop hagenda hd
  obtain rfl : e = d' := by
    cases e with
    | run ran inside =>
      rw [← he] at hrun
      cases hrun
    | _ => exact he
  exact ⟨rest', hv, hrest⟩

theorem pop_own {d' : Duty} (hagenda : w.agenda = d :: rest) (hd : d.solo? s = some d')
    (hrun : d'.isRun = false) : ∃ rest', w.step = ({ w with agenda := rest }).discharge d ∧
      v.step = ({ v with agenda := rest' }).discharge d' ∧
      Alone s { w with agenda := rest } { v with agenda := rest' } := by
  obtain ⟨rest', hv, hrest⟩ := h.pop_same hagenda hd hrun
  exact ⟨rest', World.step_of_cons hagenda, World.step_of_cons hv, h.replan rfl rfl hrest⟩

/-- A duty of another socket. -/
theorem pop_other (hagenda : w.agenda = d :: rest) (hd : d.solo? s = none) :
    w.step = ({ w with agenda := rest }).discharge d ∧
      Alone s { w with agenda := rest } v := by
  refine ⟨World.step_of_cons hagenda, h.replan rfl rfl ?_⟩
  have hv := h.agenda
  rw [hagenda, List.filterMap_cons_none hd] at hv
  exact hv

theorem emit (event : Event) : Alone s (w.emit s event) (v.emit 0 event) := by
  have hsame : (v.socket 0).handlers.get event.slot = (w.socket s).handlers.get event.slot := by
    rw [h.socket]
    rfl
  cases hget : (w.socket s).handlers.get event.slot with
  | none =>
    rw [World.emit_of_none hget, World.emit_of_none (hsame.trans hget)]
    exact h
  | some script =>
    rw [World.emit_of_some hget, World.emit_of_some (hsame.trans hget)]
    apply (h.note _ _).push
    rw [List.map_append, map_uncounted_acts s, List.filterMap_append,
      List.filterMap_cons_some (show (Duty.leave s event).solo? s = _ from if_pos rfl)]
    rfl

theorem emit_of_ne (hr : r ≠ s) (event : Event) : Alone s (w.emit r event) v := by
  unfold World.emit
  split
  · exact h
  next script _ =>
    apply (h.note_left (.called r event)).push_other
    rw [List.filterMap_append, filterMap_acts_of_ne hr,
      List.filterMap_cons_none (show (Duty.leave r event).solo? s = none from if_neg hr)]
    rfl

end Alone

/-- Above the runs there is nothing of a socket whose duty is not the first one. -/
theorem isRun_of_head? {agenda : List Duty} (hstacked : Stacked agenda)
    (hhead : ∀ d ∈ agenda.head?, d.isRun = true ∨ d.host? ≠ some s) :
    ∀ e ∈ (agenda.filterMap (Duty.solo? s)).head?, e.isRun = true := by
  induction agenda with
  | nil =>
    intro e he
    cases he
  | cons d rest ih =>
    have hd := hhead d rfl
    cases hsolo : d.solo? s with
    | some e =>
      intro e' he'
      rw [List.filterMap_cons_some hsolo, List.head?_cons, Option.mem_some] at he'
      subst he'
      cases d with
      | run ran inside =>
        cases inside with
        | none =>
          cases hsolo
          rfl
        | some r =>
          obtain ⟨-, heq⟩ := Option.ite_none_right_eq_some.1 hsolo
          cases heq
          rfl
      | _ =>
        obtain ⟨rfl, -⟩ := Option.ite_none_right_eq_some.1 hsolo
        rcases hd with hd | hd
        · cases hd
        · exact absurd rfl hd
    | none =>
      rw [List.filterMap_cons_none hsolo]
      apply ih hstacked.tail
      intro e he
      have habove := hstacked.head e he
      -- the duty belongs to another socket, and so does what it stands on, unless that is a run
      have hne : d.host? ≠ some s := by
        intro hs
        cases d with
        | _ =>
          cases hs
          simp [Duty.solo?] at hsolo
      cases d with
      | run ran inside => exact Or.inr (by rw [habove.2]; exact hne)
      | act r data a =>
        rcases habove with ⟨b, rfl⟩ | ⟨event, rfl, -⟩ <;> exact Or.inr hne
      | _ =>
        rcases habove with hrun | hhost
        · exact Or.inl hrun
        · exact Or.inr (by rw [hhost]; exact hne)

/-- The next step is one of socket `s`: its duty, or a run that takes its task; the end of a run of the
program is one of every socket. -/
def World.concerns (w : World) (s : Nat) : Bool :=
  match w.agenda with
  | [] => false
  | .run _ inside :: _ =>
    match w.loop.next? with
    | some next => next.1.host? w == some s
    | none => inside == none || inside == some s
  | d :: _ => d.host? == some s

namespace Alone

variable {v : World}

variable (h : Alone s w v)
include h

/-- A run goes on, and its task leaves the loop. -/
theorem take (hagenda : w.agenda = .run ran inside :: rest) (hnext : w.loop.next? = some (t, loop))
    (hv : v' = { v with loop := v'.loop, agenda := v'.agenda })
    (hqueue : v.loop.queue = (t.solo? s w.owners).toList ++ v'.loop.queue)
    (hclosed : v'.loop.closed = false)
    (hagenda' : v'.agenda.map Duty.uncounted = v.agenda.map Duty.uncounted) :
    Alone s (({ w with agenda := rest, loop } : World).push [.run (ran + 1) inside]) v' := by
  have hfront := queue_of_next? hnext
  have hopen : loop.closed = false := by
    have hsame := hnext
    simp only [Loop.next?, h.opened, Bool.false_eq_true, if_false, hfront, Option.some.injEq,
      Prod.mk.injEq, true_and] at hsame
    rw [← hsame]
  have hrest : v'.loop = { queue := loop.queue.filterMap (Task.solo? s w.owners), closed := false } := by
    have hwhole := congrArg Loop.queue h.loop
    rw [hqueue, hfront] at hwhole
    have hsame : v'.loop.queue = loop.queue.filterMap (Task.solo? s w.owners) := by
      cases ht : t.solo? s w.owners with
      | none | some t' => simpa [ht] using hwhole
    cases hloop : v'.loop with
    | mk queue closed =>
      rw [hloop] at hsame hclosed
      rw [← hsame]
      exact congrArg _ hclosed
  rw [hv]
  refine ⟨hopen, hrest, h.sockets, h.calls, ?_, h.fault, h.marked, ?_⟩
  · show v'.agenda.map Duty.uncounted = (.run (ran + 1) inside :: rest).filterMap (Duty.solo? s)
    rw [hagenda', h.agenda, hagenda]
    cases inside <;> rfl
  · intro u hu
    apply h.known u
    rw [hfront]
    exact List.mem_cons_of_mem t hu

section

variable (hstacked : Stacked w.agenda)
include hstacked

/-- If a run stands first, one does so in the other world. -/
theorem run_first (hgrounded : Grounded w.agenda) (hagenda : w.agenda = .run ran inside :: rest) :
    ∃ ran' inside' rest', v.agenda = .run ran' inside' :: rest' := by
  have hfirst := isRun_of_head? (s := s) hstacked (by
    intro d hd
    rw [hagenda, List.head?_cons, Option.mem_some] at hd
    exact Or.inl (by rw [← hd]; rfl))
  obtain ⟨n, hn⟩ := hgrounded.mem (hagenda ▸ List.cons_ne_nil _ _)
  have hmem : Duty.run 0 none ∈ w.agenda.filterMap (Duty.solo? s) := List.mem_filterMap.2 ⟨_, hn, rfl⟩
  rw [← h.agenda] at hfirst hmem
  cases hagenda' : v.agenda with
  | nil =>
    rw [hagenda'] at hmem
    cases hmem
  | cons e rest' =>
    have he := hfirst e.uncounted (by rw [hagenda']; rfl)
    cases e with
    | run ran' inside' => exact ⟨ran', inside', rest', rfl⟩
    | _ => cases he

/-- A run takes a task of the socket. -/
theorem step_run (hgrounded : Grounded w.agenda)
    (hagenda : w.agenda = .run ran inside :: rest) (hnext : w.loop.next? = some (t, loop))
    (hhost : t.host? w = some s) : Alone s w.step v.step := by
  obtain ⟨t', ht⟩ := solo?_of_host? hhost
  obtain ⟨ran', inside', rest', hv⟩ := h.run_first hstacked hgrounded hagenda
  have hfront := queue_of_next? hnext
  have hloop : v.loop = { queue := t' :: loop.queue.filterMap (Task.solo? s w.owners), closed := false } := by
    rw [h.loop, hfront, List.filterMap_cons_some ht]
  have hnext' : v.loop.next? =
      some (t', { queue := loop.queue.filterMap (Task.solo? s w.owners), closed := false }) := by
    rw [hloop]
    rfl
  have hw : w.step = (({ w with agenda := rest, loop } : World).push [.run (ran + 1) inside]).execute t := by
    simp only [World.step, hagenda, World.discharge, hnext]
  have hstep : v.step = (({ v with
      agenda := rest'
      loop := { queue := loop.queue.filterMap (Task.solo? s w.owners), closed := false } } : World).push
      [.run (ran' + 1) inside']).execute t' := by
    simp only [World.step, hv, World.discharge, hnext']
  rw [hw, hstep]
  refine Alone.execute (h.take hagenda hnext rfl ?_ rfl ?_) ht
  · rw [hloop, ht]
    rfl
  · rw [hv]
    rfl

/-- A step of the socket. -/
theorem step (hnested : Nested w.agenda) (hgrounded : Grounded w.agenda) (hconcerns : w.concerns s = true)
    (hopen : w.step.loop.closed = false) : Alone s w.step v.step := by
  unfold World.concerns at hconcerns
  cases hagenda : w.agenda with
  | nil =>
    rw [hagenda] at hconcerns
    cases hconcerns
  | cons d rest =>
    rw [hagenda] at hconcerns
    cases d using Duty.byJobs with
    | run ran inside =>
      cases hnext : w.loop.next? with
      | some next =>
        obtain ⟨t, loop⟩ := next
        rw [hnext] at hconcerns
        exact h.step_run hstacked hgrounded hagenda hnext (by simpa using hconcerns)
      | none =>
        -- the run ends in both worlds
        rw [hnext] at hconcerns
        have hqueue : w.loop.queue = [] := by
          cases hq : w.loop.queue with
          | nil => rfl
          | cons t more => simp [Loop.next?, h.opened, hq] at hnext
        have hnext' : v.loop.next? = none := by
          rw [h.loop, hqueue]
          rfl
        obtain ⟨d', hd⟩ : ∃ d', (Duty.run ran inside).solo? s = some d' ∧
            ∃ inside', d' = .run 0 inside' := by
          cases inside with
          | none => exact ⟨_, rfl, _, rfl⟩
          | some r =>
            have hr : r = s := by simpa using hconcerns
            exact ⟨_, if_pos hr, _, rfl⟩
        obtain ⟨hsolo, inside', rfl⟩ := hd
        obtain ⟨e, rest', hv, he, hrest⟩ := h.pop hagenda hsolo
        obtain ⟨ran', rfl⟩ : ∃ ran', e = .run ran' inside' := by
          cases e with
          | run ran' i =>
            cases he
            exact ⟨ran', rfl⟩
          | _ => cases he
        have hleft : Alone s { w with agenda := rest } { v with agenda := rest' } :=
          h.replan rfl rfl hrest
        simp only [World.step, hagenda, hv, World.discharge, hnext, hnext']
        cases inside <;> cases inside' <;>
          exact hleft.replan rfl rfl hrest
    | act r data a =>
      obtain rfl : r = s := by simpa [Duty.host?] using hconcerns
      have hhandler : w.handler? = some (r, data) := by simp only [World.handler?, hagenda]
      obtain ⟨event, hframe, -⟩ := frame?_of_handler hstacked hnested hhandler
      obtain ⟨rest', hw, hv, hrest⟩ := h.pop_own hagenda (if_pos rfl) rfl
      rw [hagenda] at hstacked hnested hframe
      rw [hw] at hopen ⊢
      rw [hv]
      apply hrest.perform hstacked.tail hnested.2 hframe data
      rintro rfl
      cases hopen
    | leave r event =>
      obtain rfl : r = s := by simpa [Duty.host?] using hconcerns
      obtain ⟨rest', hw, hv, hrest⟩ := h.pop_own hagenda (if_pos rfl) rfl
      rw [hw, hv]
      exact hrest
    | job r j =>
      -- jobs of the socket are done in both worlds
      obtain rfl : r = s := by cases j <;> simpa [Job.duty, Duty.host?] using hconcerns
      obtain ⟨rest', hw, hv, hrest⟩ := h.pop_own hagenda (solo?_duty r j) (by cases j <;> rfl)
      rw [hw, hv]
      cases j with
      | emit event => exact hrest.emit event
      | _ => exact (likeness r).discharge hrest rfl

/-- A step of another socket. -/
theorem step_of_ne (hnested : Nested w.agenda)
    (hconcerns : w.concerns s = false) (hopen : w.step.loop.closed = false) : Alone s w.step v := by
  unfold World.concerns at hconcerns
  cases hagenda : w.agenda with
  | nil =>
    have hw : w.step = w := by simp only [World.step, hagenda]
    rw [hw]
    exact h
  | cons d rest =>
    rw [hagenda] at hconcerns
    cases d using Duty.byJobs with
    | run ran inside =>
      cases hnext : w.loop.next? with
      | some next =>
        obtain ⟨t, loop⟩ := next
        rw [hnext] at hconcerns
        have hhost : t.host? w ≠ some s := by simpa using hconcerns
        have hw : w.step =
            (({ w with agenda := rest, loop } : World).push [.run (ran + 1) inside]).execute t := by
          simp only [World.step, hagenda, World.discharge, hnext]
        rw [hw]
        refine Alone.execute_of_ne (h.take hagenda hnext rfl ?_ ?_ rfl) hhost
        · rw [solo?_of_host?_ne hhost]
          rfl
        · rw [h.loop]
      | none =>
        rw [hnext] at hconcerns
        cases inside with
        | none => simp at hconcerns
        | some r =>
          have hr : r ≠ s := by simpa using hconcerns
          obtain ⟨hw, hrest⟩ := h.pop_other hagenda (if_neg hr)
          rw [hw]
          simp only [World.discharge, hnext]
          exact hrest.note_left _
    | act r data a =>
      have hr : r ≠ s := by simpa [Duty.host?] using hconcerns
      have hhandler : w.handler? = some (r, data) := by simp only [World.handler?, hagenda]
      obtain ⟨event, hframe, -⟩ := frame?_of_handler hstacked hnested hhandler
      obtain ⟨hw, hrest⟩ := h.pop_other hagenda (if_neg hr)
      rw [hagenda] at hstacked hnested hframe
      rw [hw] at hopen ⊢
      apply hrest.perform_of_ne hstacked.tail hnested.2 hr hframe data
      rintro rfl
      cases hopen
    | leave r event =>
      have hr : r ≠ s := by simpa [Duty.host?] using hconcerns
      obtain ⟨hw, hrest⟩ := h.pop_other hagenda (if_neg hr)
      rw [hw]
      exact hrest
    | job r j =>
      have hr : r ≠ s := by cases j <;> simpa [Job.duty, Duty.host?] using hconcerns
      obtain ⟨hw, hrest⟩ := h.pop_other hagenda (solo?_duty_of_ne hr j)
      rw [hw]
      cases j with
      | emit event => exact hrest.emit_of_ne hr event
      | _ => exact (kept hr v).discharge hrest rfl

/-- Who is called by a step of the socket. -/
theorem emitting? (hgrounded : Grounded w.agenda) (hconcerns : w.concerns s = true) :
    (w.emitting? = none ∧ v.emitting? = none) ∨
      ∃ event, w.emitting? = some (s, event) ∧ v.emitting? = some (0, event) := by
  unfold World.concerns at hconcerns
  unfold World.emitting?
  cases hagenda : w.agenda with
  | nil =>
    rw [hagenda] at hconcerns
    cases hconcerns
  | cons d rest =>
    rw [hagenda] at hconcerns
    cases d with
    | run ran inside =>
      obtain ⟨ran', inside', rest', hv⟩ := h.run_first hstacked hgrounded hagenda
      rw [hv]
      exact Or.inl ⟨rfl, rfl⟩
    | emit r event =>
      obtain rfl : r = s := by simpa [Duty.host?] using hconcerns
      obtain ⟨rest', hv, -⟩ := h.pop_same hagenda (if_pos rfl) rfl
      rw [hv]
      exact Or.inr ⟨event, rfl, rfl⟩
    | act r | leave r | dispatch r | resume r | begin r | closeIfClosing r =>
      obtain rfl : r = s := by simpa [Duty.host?] using hconcerns
      obtain ⟨rest', hv, -⟩ := h.pop_same hagenda (if_pos rfl) rfl
      rw [hv]
      exact Or.inl ⟨rfl, rfl⟩

end

omit h in
theorem emitting?_of_ne (hconcerns : w.concerns s = false) : ∀ o ∈ w.emitting?, o.1 ≠ s := by
  intro o ho
  unfold World.emitting? at ho
  unfold World.concerns at hconcerns
  cases hagenda : w.agenda with
  | nil =>
    rw [hagenda] at ho
    cases ho
  | cons d rest =>
    rw [hagenda] at ho hconcerns
    cases d with
    | emit r event =>
      cases ho
      simpa [Duty.host?] using hconcerns
    | _ => cases ho

theorem attends (event : Event) : v.attends (0, event) = w.attends (s, event) := by
  unfold World.attends
  rw [h.socket]
  rfl

/-! ### Moves -/

theorem handler? {data : String} (hw : w.handler? = some (s, data)) : v.handler? = some (0, data) := by
  unfold World.handler? at hw ⊢
  cases hagenda : w.agenda with
  | nil =>
    rw [hagenda] at hw
    cases hw
  | cons d rest =>
    rw [hagenda] at hw
    cases d with
    | act | leave =>
      cases hw
      obtain ⟨rest', hv, -⟩ := h.pop_same hagenda (if_pos rfl) rfl
      rw [hv]
    | _ => cases hw

/-- A socket more: this one, or another one. -/
theorem addSocket (x : Socket) (hx : x.inflight = none) (hv : v' = { v with sockets := v'.sockets })
    (hsockets : v'.sockets = ((w.sockets ++ [x])[s]?.map (relabel s w.owners)).toList) :
    Alone s (w.addSocket x) v' := by
  rw [hv]
  refine { h with sockets := hsockets, marked := ?_ }
  intro r c hc
  rw [World.socket_addSocket] at hc
  split at hc
  · cases hx.symm.trans hc
  · exact h.marked r c hc

omit h in
theorem create_eq (hopen : w.loop.closed = false) (o : Options) :
    w.create o = ((w.addSocket o.socket).post (.establish w.sockets.length)).1 := by
  have haccepted : ((w.addSocket o.socket).post (.establish w.sockets.length)).2 = true := by
    show (w.loop.post _).2 = true
    simp only [Loop.post, hopen, Bool.false_eq_true, if_false]
  rw [World.create_eq, if_pos haccepted]

theorem create (hs : w.sockets.length = s) (o : Options) : Alone s (w.create o) (v.create o) := by
  have hnone : v.sockets = [] := by
    rw [h.sockets, List.getElem?_eq_none hs.le]
    rfl
  have hadded : Alone s (w.addSocket o.socket) (v.addSocket o.socket) := by
    apply h.addSocket o.socket rfl rfl
    show v.sockets ++ [o.socket] = _
    rw [hnone, ← hs, List.getElem?_concat_length]
    rfl
  rw [create_eq h.opened, create_eq h.opened_alone]
  apply hadded.post_own
  · intro c hc
    cases hc
  · rw [hnone, hs]
    exact if_pos rfl

theorem create_of_ne (hs : w.sockets.length ≠ s) (o : Options) : Alone s (w.create o) v := by
  have hadded : Alone s (w.addSocket o.socket) v := by
    apply h.addSocket o.socket rfl rfl
    rw [h.sockets]
    rcases Nat.lt_or_gt_of_ne hs with hlt | hlt
    · rw [List.getElem?_eq_none hlt.le, List.getElem?_eq_none (by simp; omega)]
    · rw [List.getElem?_append_left hlt]
  rw [create_eq h.opened]
  apply hadded.post_of_ne
  · intro c hc
    cases hc
  · exact if_neg hs

omit h in
theorem owners_answer (w : World) (c : Nat) :
    ({ w with calls := w.calls.modify c fun x => { x with answered := true } } : World).owners = w.owners :=
  owners_modify (f := fun x => { x with answered := true }) (fun _ => rfl) c

theorem answer (hc : w.owners[c]? = some s) (hcall : t.call? = some c)
    (ht : t.solo? s w.owners = some t') : Alone s (w.answer c t).1 (v.answer (rank s w.owners c) t').1 := by
  have hflagged := h.modify_own hc (f := fun x => { x with answered := true }) (fun _ => rfl) fun _ => rfl
  apply hflagged.post_own
  · intro d hd
    cases hcall.symm.trans hd
    rw [owners_answer]
    exact (List.getElem?_eq_some_iff.1 hc).1
  · rwa [owners_answer]

theorem answer_of_ne (hc : w.owners[c]? ≠ some s) (hlt : c < w.owners.length)
    (hcall : t.call? = some c) (ht : t.solo? s w.owners = none) : Alone s (w.answer c t).1 v := by
  have hflagged := h.modify_other hc (f := fun x => { x with answered := true }) fun _ => rfl
  apply hflagged.post_of_ne
  · intro d hd
    cases hcall.symm.trans hd
    rwa [owners_answer]
  · rwa [owners_answer]

theorem awaits (hc : w.owners[c]? = some s) : v.awaits (rank s w.owners c) = w.awaits c := by
  obtain ⟨x, hx, hs⟩ := owner_of_owners hc
  unfold World.awaits
  rw [hx, h.call hx hs]

end Alone

/-! ## Runs -/

/-- What a move is for socket `s` alone; nothing, if it is one of another socket. -/
def World.aloneMove? (w : World) (s : Nat) : Move → Option Move
  | .step => if w.concerns s then some .step else none
  | .create o => if w.sockets.length = s then some (.create o) else none
  | .post r op => if r = s then some (.post 0 op) else none
  | .act a => if w.handler?.map (·.1) = some s then some (.act a) else none
  | .succeed c body =>
    if w.owners[c]? = some s then some (.succeed (rank s w.owners c) body) else none
  | .fail c => if w.owners[c]? = some s then some (.fail (rank s w.owners c)) else none
  | m => some m

/-- The run of socket `s` alone. -/
def alone (s : Nat) : History → List Move → List Move
  | _, [] => []
  | h, m :: more => (h.world.aloneMove? s m).toList ++ alone s (h.after m) more

/-- Events of socket `s` for which its consumer was called. -/
def calledOf (s : Nat) (called : List (Nat × Event)) : List Event :=
  called.filterMap fun o => if o.1 = s then some o.2 else none

/-- What can be seen of a socket: its exchanges with what was aborted, the calls of its consumer, its
state, session and queue. -/
structure Sight where
  exchanges : List (Exchange × Bool)
  callbacks : List Event
  state : ReadyState
  session : SessionId
  pending : List String

/-- What can be seen of socket `s`. -/
def History.sight (h : History) (s : Nat) : Sight where
  exchanges := h.world.calls.filterMap fun x =>
    if x.owner = s then some (x.exchange, x.aborted) else none
  callbacks := calledOf s h.world.callbacks
  state := (h.world.socket s).state
  session := (h.world.socket s).session
  pending := (h.world.socket s).pending

/-- What is seen of socket `s` after each move. -/
def trace (s : Nat) : History → List Move → List Sight
  | _, [] => []
  | h, m :: more => (h.after m).sight s :: trace s (h.after m) more

/-- What is seen of socket `s` after each move that is one of its own. -/
def ownTrace (s : Nat) : History → List Move → List Sight
  | _, [] => []
  | h, m :: more =>
    ((h.world.aloneMove? s m).map fun _ => (h.after m).sight s).toList ++ ownTrace s (h.after m) more

/-- History `k` is what is left of history `h` for socket `s`. -/
structure Apart (s : Nat) (h k : History) : Prop where
  world : Alone s h.world k.world
  called : calledOf 0 k.world.callbacks = calledOf s h.world.callbacks

variable {h : History}

theorem World.lt_of_awaits (h : w.awaits c = true) : c < w.owners.length := by
  unfold World.awaits at h
  split at h
  next x hx =>
    rw [World.owners, List.length_map]
    exact (List.getElem?_eq_some_iff.1 hx).1
  next => cases h

/-- A loop that is open was open before. -/
theorem open_of_after {m : Move} (hopen : (h.after m).world.loop.closed = false) :
    h.world.loop.closed = false := by
  have hpost : ∀ (l : Loop Task) (t : Task), (l.post t).1.closed = l.closed := by
    intro l t
    unfold Loop.post
    split <;> rfl
  cases m with
  | create o =>
    change (h.world.create o).loop.closed = false at hopen
    rw [(Quiet.create h.world o).loop] at hopen
    exact (hpost _ _).symm.trans hopen
  | succeed c | fail c =>
    unfold History.after at hopen
    dsimp only at hopen
    split at hopen
    · exact (hpost _ _).symm.trans hopen
    · exact hopen
  | _ => exact ((h.proceeds_after rfl).kept hopen).1

theorem open_of_run (hopen : (moves.foldl History.after h).world.loop.closed = false) :
    h.world.loop.closed = false := by
  induction moves generalizing h with
  | nil => exact hopen
  | cons m more ih => exact open_of_after (ih hopen)

namespace Apart

variable {k : History}

variable (ha : Apart s h k)
include ha

theorem sight : h.sight s = k.sight 0 := by
  have hsocket := ha.world.socket
  unfold History.sight
  rw [hsocket, ha.called, ha.world.calls, List.filterMap_filterMap]
  congr 1
  apply List.filterMap_congr
  intro x _
  by_cases hx : x.owner = s
  · rw [solo?_of_owner hx, if_pos hx]
    rfl
  · rw [solo?_of_ne hx, if_neg hx]
    rfl

/-- Nobody is called. -/
theorem same {v : World} (hworld : Alone s w v) (hw : w.callbacks = h.world.callbacks)
    (hv : v.callbacks = k.world.callbacks) : Apart s { h with world := w } { k with world := v } :=
  ⟨hworld, by rw [hw, hv, ha.called]⟩

variable (hs : Sound h.toBooks h.world) (hstacked : Stacked h.world.agenda)
include hs hstacked

/-- A step of the socket. -/
theorem step (hgrounded : Grounded h.world.agenda) (hconcerns : h.world.concerns s = true)
    (hopen : h.world.step.loop.closed = false) : Apart s h.step k.step := by
  refine ⟨ha.world.step hstacked hs.shape.nested hgrounded hconcerns hopen, ?_⟩
  have hcalled := ha.called
  unfold calledOf at hcalled ⊢
  show k.world.step.callbacks.filterMap _ = h.world.step.callbacks.filterMap _
  rw [World.callbacks_step, World.callbacks_step, List.filterMap_append, List.filterMap_append, hcalled]
  rcases ha.world.emitting? hstacked hgrounded hconcerns with ⟨hw, hv⟩ | ⟨event, hw, hv⟩
  · rw [hw, hv]
    rfl
  · rw [hw, hv]
    cases hattends : h.world.attends (s, event) <;>
      simp [Option.filter, ha.world.attends, hattends]

/-- A step of another socket. -/
theorem step_of_ne (hconcerns : h.world.concerns s = false) (hopen : h.world.step.loop.closed = false) :
    Apart s h.step k := by
  refine ⟨ha.world.step_of_ne hstacked hs.shape.nested hconcerns hopen, ?_⟩
  rw [ha.called]
  unfold calledOf
  show _ = h.world.step.callbacks.filterMap _
  rw [World.callbacks_step]
  have hother := Alone.emitting?_of_ne hconcerns
  cases hemitting : h.world.emitting? with
  | none => simp
  | some o =>
    have ho := hother o hemitting
    cases hattends : h.world.attends o <;> simp [Option.filter, hattends, ho]

/-- A move of the socket is one of both runs, one of another socket leaves what is left for it. -/
theorem after (hgrounded : Grounded h.world.agenda) {m : Move} (hopen : (h.after m).world.loop.closed = false) :
    Apart s (h.after m) ((h.world.aloneMove? s m).elim k k.after) := by
  have hworld := ha.world
  cases m with
  | step =>
    cases hconcerns : h.world.concerns s with
    | true =>
      rw [World.aloneMove?, if_pos hconcerns]
      exact ha.step hs hstacked hgrounded hconcerns hopen
    | false =>
      rw [World.aloneMove?, if_neg (by rw [hconcerns]; exact Bool.false_ne_true)]
      exact ha.step_of_ne hs hstacked hconcerns hopen
  | drive =>
    have hempty : k.world.agenda.isEmpty = h.world.agenda.isEmpty := by
      rw [Bool.eq_iff_iff, List.isEmpty_iff, List.isEmpty_iff]
      constructor
      · intro hk
        by_contra hne
        obtain ⟨ran, hran⟩ := hgrounded.mem hne
        have hmem : Duty.run 0 none ∈ h.world.agenda.filterMap (Duty.solo? s) :=
          List.mem_filterMap.2 ⟨_, hran, rfl⟩
        rw [← hworld.agenda, hk] at hmem
        cases hmem
      · intro hh
        have hk := hworld.agenda
        rw [hh] at hk
        exact List.map_eq_nil_iff.1 hk
    show Apart s (h.after .drive) (k.after .drive)
    simp only [History.after, hempty]
    split
    · exact ha.same (hworld.replan rfl rfl rfl) rfl rfl
    · exact ha
  | create o =>
    by_cases hlength : h.world.sockets.length = s
    · rw [World.aloneMove?, if_pos hlength]
      exact ha.same (hworld.create hlength o) (h.world.callbacks_create o) (k.world.callbacks_create o)
    · rw [World.aloneMove?, if_neg hlength]
      exact ha.same (hworld.create_of_ne hlength o) (h.world.callbacks_create o) rfl
  | post r op =>
    have hknown : ∀ c, (op.task r).call? = some c → c < h.world.owners.length := by
      intro c hc
      cases op <;> cases hc
    by_cases hr : r = s
    · rw [World.aloneMove?, if_pos hr]
      have hlength : (0 < k.world.sockets.length) = (s < h.world.sockets.length) := by
        rw [hworld.sockets]
        by_cases hlt : s < h.world.sockets.length <;> simp [hlt]
      have hsolo : (op.task s).solo? s h.world.owners = some (op.task 0) := by
        cases op <;> exact if_pos rfl
      subst hr
      simp only [Option.elim, History.after, hlength]
      split
      · exact ha.same (hworld.post_own hknown hsolo) rfl rfl
      · exact ha
    · rw [World.aloneMove?, History.after]
      have hsolo : (op.task r).solo? s h.world.owners = none := by
        cases op <;> exact if_neg hr
      split
      · exact ha.same (hworld.post_of_ne hknown hsolo) rfl rfl
      · exact ha
  | act a =>
    cases hhandler : h.world.handler? with
    | none =>
      simp only [World.aloneMove?, hhandler, Option.map_none, reduceCtorEq, History.after]
      exact ha
    | some handler =>
      obtain ⟨r, data⟩ := handler
      obtain ⟨event, hframe, -⟩ := frame?_of_handler hstacked hs.shape.nested hhandler
      have hclosing : a ≠ .closeLoop := by
        rintro rfl
        simp only [History.after, hhandler] at hopen
        cases hopen
      by_cases hr : r = s
      · subst hr
        simp only [World.aloneMove?, hhandler, Option.map_some, if_true, Option.elim, History.after,
          hworld.handler? hhandler]
        exact ha.same (hworld.perform hstacked hs.shape.nested hframe data hclosing)
          (World.callbacks_perform _ _ _ _) (World.callbacks_perform _ _ _ _)
      · simp only [World.aloneMove?, hhandler, Option.map_some, Option.some.injEq, hr, History.after]
        exact ha.same (hworld.perform_of_ne hstacked hs.shape.nested hr hframe data hclosing)
          (World.callbacks_perform _ _ _ _) rfl
  | succeed c | fail c =>
    by_cases hc : h.world.owners[c]? = some s
    · rw [World.aloneMove?, if_pos hc]
      simp only [Option.elim, History.after, hworld.awaits hc]
      split
      · exact ha.same (hworld.answer hc rfl (if_pos hc)) rfl rfl
      · exact ha
    · rw [World.aloneMove?, History.after]
      split
      next hawaits =>
        exact ha.same (hworld.answer_of_ne hc (World.lt_of_awaits hawaits) rfl (if_neg hc)) rfl rfl
      next => exact ha
  | fault cause =>
    exact ha.same { hworld with fault := rfl } rfl rfl
  | closeLoop => cases hopen

/-- The runs stay alike, and the socket is seen the same after each of its moves. -/
theorem run (hgrounded : Grounded h.world.agenda)
    (hopen : (moves.foldl History.after h).world.loop.closed = false) :
    Apart s (moves.foldl History.after h) ((alone s h moves).foldl History.after k) ∧
      ownTrace s h moves = trace 0 k (alone s h moves) := by
  induction moves generalizing h k with
  | nil => exact ⟨ha, rfl⟩
  | cons m more ih =>
    have hafter : (h.after m).world.loop.closed = false := open_of_run hopen
    have hnext := ha.after hs hstacked hgrounded hafter
    have hs' := sound_after hs m
    have hstacked' := stacked_after hs hstacked m
    have hgrounded' := grounded_after hs hgrounded m
    unfold alone ownTrace
    cases hmove : h.world.aloneMove? s m with
    | none =>
      rw [hmove] at hnext
      exact ih hnext hs' hstacked' hgrounded' hopen
    | some m' =>
      rw [hmove] at hnext
      obtain ⟨hrun, htrace⟩ := ih hnext hs' hstacked' hgrounded' hopen
      refine ⟨hrun, ?_⟩
      simp only [Option.toList_some, List.singleton_append, htrace, hnext.sight]
      rfl

end Apart

theorem apart_empty (s : Nat) : Apart s {} {} where
  world :=
    { opened := rfl, loop := rfl, sockets := rfl, calls := rfl, agenda := rfl, fault := rfl
      marked r c hc := by
        cases hc
      known t ht := by
        cases ht }
  called := rfl

theorem apart_run (s : Nat) (hopen : (History.run moves).world.loop.closed = false) :
    Apart s (History.run moves) (History.run (alone s {} moves)) ∧
      ownTrace s {} moves = trace 0 {} (alone s {} moves) :=
  (apart_empty s).run sound_empty List.IsChain.nil (Or.inl rfl) hopen

/-- On an open loop each socket is seen, after each of its own moves, as it is seen when it runs alone
with the operations and completions that are its own. Moves of other sockets do not change what is seen
of it. -/
theorem sockets_apart (moves : List Move) (s : Nat)
    (hopen : (History.run moves).world.loop.closed = false) :
    ownTrace s {} moves = trace 0 {} (alone s {} moves) ∧
      (∀ front m back, moves = front ++ m :: back → (History.run front).world.aloneMove? s m = none →
        (History.run (front ++ [m])).sight s = (History.run front).sight s) ∧
      (History.run moves).sight s = (History.run (alone s {} moves)).sight 0 ∧
      (History.run (alone s {} moves)).world.sockets.length ≤ 1 ∧
      (History.run (alone s {} moves)).world.loop.closed = false := by
  obtain ⟨hrun, htrace⟩ := apart_run s hopen
  refine ⟨htrace, ?_, hrun.sight, ?_, by rw [hrun.world.loop]⟩
  · rintro front m back rfl hnone
    have hafter : ((History.run front).after m).world.loop.closed = false := by
      apply open_of_run
      have hall := hopen
      unfold History.run at hall
      rw [List.foldl_append] at hall
      exact hall
    have hfront := (apart_run s (open_of_after hafter)).1
    have hother := hfront.after (sound_run front) (stacked_run front) (grounded_run front) hafter
    rw [hnone] at hother
    rw [History.run_concat, hother.sight, hfront.sight]
    rfl
  · rw [hrun.world.sockets]
    cases (History.run moves).world.sockets[s]? <;> simp

/-- The handler of one socket runs the loop, and tasks of the other are executed inside of it. -/
def nestedNeighbours : List Move :=
  ([.create { address := "ws://a", handlers := { onOpen := some [.runLoop, .close] } },
    .create { address := "ws://b", handlers :=
      { onOpen := some [.send "b" false], onMessage := some [] } }, .drive, .step,
    .step, .step, .succeed 0 (handshakeResponseBody "x"), .succeed 1 (handshakeResponseBody "y"),
    .post 1 (.send "c"), .drive] : List Move) ++ List.replicate 17 .step ++
  ([.succeed 2 (drainResponseBody ["m"]), .drive] : List Move) ++ List.replicate 7 .step

theorem sockets_apart_nestedNeighbours :
    (History.run nestedNeighbours).world.loop.closed = false ∧
      ownTrace 1 {} nestedNeighbours = trace 0 {} (alone 1 {} nestedNeighbours) ∧
      nestedNeighbours.length = 36 ∧ (ownTrace 1 {} nestedNeighbours).length = 24 ∧
      (History.run (nestedNeighbours.take 14)).world.concerns 1 = true ∧
      frame? ((History.run (nestedNeighbours.take 18)).world.agenda.drop 1) = some (0, .opened) ∧
      ((History.run nestedNeighbours).sight 1).callbacks = [.opened, .message "m"] ∧
      ((History.run (alone 1 {} nestedNeighbours)).sight 0).callbacks = [.opened, .message "m"] ∧
      ((History.run (alone 1 {} nestedNeighbours)).sight 0).exchanges.length = 3 := by
  have hopen : (History.run nestedNeighbours).world.loop.closed = false := by decide +kernel
  obtain ⟨htrace, -, hsight, -⟩ := sockets_apart nestedNeighbours 1 hopen
  refine ⟨hopen, htrace, rfl, by decide +kernel, by decide +kernel, by decide +kernel,
    by decide +kernel, ?_, by decide +kernel⟩
  rw [← hsight]
  decide +kernel

end PollSocket.Socket
