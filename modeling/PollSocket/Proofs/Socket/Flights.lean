import PollSocket.Proofs.Socket.Frame

set_option autoImplicit false

/-!
# Calls in flight

`Flights` is the invariant that ties the marks of sockets to the calls they have issued. It speaks
of the sockets `R` that are delivering the messages of a response: on those the mark stands for a
call that has succeeded already, on all others for one that is outstanding. Every part of a step
that touches calls, marks or the loop has one lemma here.
-/

namespace PollSocket.Socket

variable {taken : List Task} {l : Loop Task} {c call s : Nat} {t : Task}

/-! ## Tasks that are posted once -/

/-- What is posted once only: the handshake of a socket and the completion of a call. -/
inductive Once where
  | establish (s : Nat)
  | complete (call : Nat)
  deriving DecidableEq

/-- What a task is the only one for. -/
def Task.once? : Task → Option Once
  | .establish s => some (.establish s)
  | .succeed call _ => some (.complete call)
  | .fail call => some (.complete call)
  | _ => none

theorem Task.once?_eq_complete :
    t.once? = some (.complete call) ↔ t.succeeds call = true ∨ t.fails call = true := by
  cases t <;> simp [Task.once?, Task.succeeds, Task.fails]

theorem Task.of_not_completion (h : ∀ c, t.once? ≠ some (.complete c)) (c : Nat) :
    t.succeeds c = false ∧ t.fails c = false := by
  have hc := h c
  rwa [ne_eq, Task.once?_eq_complete, not_or, Bool.not_eq_true, Bool.not_eq_true] at hc

theorem Task.once?_eq_establish : t.once? = some (.establish s) ↔ t = .establish s := by
  cases t <;> simp [Task.once?]

theorem completed_iff : completed taken call = true ↔ Once.complete call ∈ taken.filterMap Task.once? := by
  simp only [completed, succeeded, failed, Bool.or_eq_true, List.any_eq_true, List.mem_filterMap,
    Task.once?_eq_complete]
  constructor
  · rintro (⟨t, ht, h⟩ | ⟨t, ht, h⟩)
    · exact ⟨t, ht, Or.inl h⟩
    · exact ⟨t, ht, Or.inr h⟩
  · rintro ⟨t, ht, h | h⟩
    · exact Or.inl ⟨t, ht, h⟩
    · exact Or.inr ⟨t, ht, h⟩

theorem completed_of_succeeded (h : succeeded taken call = true) : completed taken call = true := by
  rw [completed, h, Bool.true_or]

theorem succeeded_append (taken : List Task) (t : Task) (call : Nat) :
    succeeded (taken ++ [t]) call = (succeeded taken call || t.succeeds call) := by
  simp [succeeded]

theorem failed_append (taken : List Task) (t : Task) (call : Nat) :
    failed (taken ++ [t]) call = (failed taken call || t.fails call) := by
  simp [failed]

theorem completed_append (taken : List Task) (t : Task) (call : Nat) :
    completed (taken ++ [t]) call =
      (completed taken call || (t.succeeds call || t.fails call)) := by
  simp only [completed, succeeded_append, failed_append]
  cases succeeded taken call <;> cases failed taken call <;> simp

/-- Different members of a list whose images do not repeat have different images. -/
theorem eq_of_nodup_filterMap {α β : Type} {f : α → Option β} {l : List α} {x y : α} {z : β}
    (h : (l.filterMap f).Nodup) (hx : x ∈ l) (hy : y ∈ l) (hxz : f x = some z)
    (hyz : f y = some z) : x = y := by
  induction l with
  | nil => cases hx
  | cons a more ih =>
    rw [List.filterMap_cons] at h
    have hmem : ∀ {u}, u ∈ more → f u = some z → z ∈ more.filterMap f :=
      fun hu hz => List.mem_filterMap.2 ⟨_, hu, hz⟩
    rcases List.mem_cons.1 hx with hxa | hxm
    · rcases List.mem_cons.1 hy with hya | hym
      · rw [hxa, hya]
      · rw [← hxa, hxz] at h
        exact absurd (hmem hym hyz) (List.nodup_cons.1 h).1
    · rcases List.mem_cons.1 hy with hya | hym
      · rw [← hya, hyz] at h
        exact absurd (hmem hxm hxz) (List.nodup_cons.1 h).1
      · refine ih ?_ hxm hym
        split at h
        · exact h
        · exact h.of_cons

/-- A loop that gives a task had it in front. -/
theorem queue_of_next? {τ : Type} {l rest : Loop τ} {t : τ} (h : l.next? = some (t, rest)) :
    l.queue = t :: rest.queue := by
  unfold Loop.next? at h
  split at h
  · cases h
  · split at h
    · cases h
    next hq =>
      cases h
      exact hq

namespace World

section

variable (w : World)

/-- An abort flags the call and is noted; nothing else changes. -/
theorem abort_eq (c : Nat) : w.abort c =
    { w with
      calls := w.calls.modify c fun x => { x with aborted := true }
      journal := (w.abort c).journal } := by
  unfold abort
  split
  next hnone => rw [List.modify_eq_self (List.getElem?_eq_none_iff.1 hnone)]
  next x hx =>
    split
    next ha =>
      -- a call that is aborted already is as it was
      have hsame : w.calls.modify c (fun x => { x with aborted := true }) = w.calls := by
        refine List.ext_getElem? fun d => ?_
        by_cases hd : c = d
        · simp [← hd, hx, ← ha]
        · simp [hd]
      rw [hsame]
    next => rfl

theorem calls_abort (c : Nat) :
    (w.abort c).calls = w.calls.modify c fun x => { x with aborted := true } := by
  rw [abort_eq]

theorem sockets_abort (c : Nat) : (w.abort c).sockets = w.sockets := by
  rw [abort_eq]

theorem loop_abort (c : Nat) : (w.abort c).loop = w.loop := by
  rw [abort_eq]

theorem agenda_abort (c : Nat) : (w.abort c).agenda = w.agenda := by
  rw [abort_eq]

theorem agenda_release (s : Nat) : (w.release s).agenda = w.agenda := by
  unfold release
  split
  · rfl
  · exact w.agenda_abort _

theorem loop_release (s : Nat) : (w.release s).loop = w.loop := by
  unfold release
  split
  · rfl
  · exact w.loop_abort _

theorem length_calls_release (s : Nat) : (w.release s).calls.length = w.calls.length := by
  unfold release
  split
  · rfl
  next c hc =>
    show (w.abort c).calls.length = _
    rw [calls_abort, List.length_modify]

theorem length_sockets_release (s : Nat) : (w.release s).sockets.length = w.sockets.length := by
  unfold release
  split
  · rfl
  · rw [length_sockets_update, sockets_abort]

theorem inflight_release (s r : Nat) :
    ((w.release s).socket r).inflight = if r = s then none else (w.socket r).inflight := by
  unfold release
  split
  next hnone =>
    split
    next hr => rw [hr, hnone]
    next => rfl
  next c hc => rw [inflight_unmark, socket_of_sockets_eq (w.sockets_abort c)]

/-- A field other than the mark is as it was. -/
theorem field_release {α : Type} (s : Nat) (field : Socket → α)
    (h : ∀ x c, field { x with inflight := c } = field x) (r : Nat) :
    field ((w.release s).socket r) = field (w.socket r) := by
  unfold release
  split
  · rfl
  next c hc =>
    rw [field_update _ s (fun x => { x with inflight := none }) field fun x => h x none,
      socket_of_sockets_eq (w.sockets_abort c)]

theorem keeps_release (s : Nat) : w.Keeps (w.release s) := by
  unfold release
  split
  · exact .of_eq rfl
  next c hc =>
    exact .of_modify (w.calls_abort c) (fun _ => rfl) (fun _ => rfl) fun _ => rfl

theorem keeps_answer (c : Nat) (t : Task) : w.Keeps (w.answer c t).1 :=
  .of_modify rfl (fun _ => rfl) (fun _ => rfl) fun _ => rfl

end

/-- The call that a socket would issue. -/
def fresh (w : World) (s : Nat) (body : Option (List UInt8)) (batch : Option (List String)) : Call :=
  { owner := s
    exchange := Exchange.ofSession (w.socket s).url (w.socket s).session.wire (w.socket s).protocol
      body
    batch }

theorem calls_issue (w : World) (s : Nat) (body : Option (List UInt8))
    (batch : Option (List String)) :
    (w.issue s body batch).calls = w.calls ++ [w.fresh s body batch] := rfl

theorem socket_issue (w : World) (s r : Nat) (body : Option (List UInt8))
    (batch : Option (List String)) :
    (w.issue s body batch).socket r =
      if r = s ∧ s < w.sockets.length then { w.socket s with inflight := some w.calls.length }
      else w.socket r :=
  socket_update { w with calls := w.calls ++ [w.fresh s body batch] } s r _

theorem inflight_issue (w : World) {r : Nat} (hs : s < w.sockets.length) (body : Option (List UInt8))
    (batch : Option (List String)) :
    ((w.issue s body batch).socket r).inflight =
      if r = s then some w.calls.length else (w.socket r).inflight := by
  rw [socket_issue]
  by_cases hr : r = s
  · rw [if_pos ⟨hr, hs⟩, if_pos hr]
  · rw [if_neg fun hand => hr hand.1, if_neg hr]

theorem state_issue (w : World) (s r : Nat) (body : Option (List UInt8))
    (batch : Option (List String)) :
    ((w.issue s body batch).socket r).state = (w.socket r).state := by
  rw [socket_issue]
  split
  next hr => rw [hr.1]
  next => rfl

/-! ## Calls of a socket -/

section

variable {w : World} {x : Call}

theorem mem_callsOf : c ∈ w.callsOf s ↔ ∃ x, w.calls[c]? = some x ∧ x.owner = s := by
  simp only [callsOf, List.mem_filter, List.mem_range, beq_iff_eq, Option.map_eq_some_iff]
  constructor
  · rintro ⟨-, h⟩
    exact h
  · rintro ⟨x, hx, hs⟩
    exact ⟨(List.getElem?_eq_some_iff.1 hx).1, x, hx, hs⟩

theorem callsOf_sorted (w : World) (s : Nat) : (w.callsOf s).Pairwise (· < ·) :=
  List.pairwise_lt_range.filter _

theorem callsOf_congr {v : World} (hkeeps : w.Keeps v) (hlength : v.calls.length = w.calls.length)
    (s : Nat) : v.callsOf s = w.callsOf s := by
  rw [callsOf, hlength]
  refine List.filter_congr fun c hc => ?_
  obtain ⟨y, hy, hown, -⟩ := hkeeps c _ (List.getElem?_eq_getElem (List.mem_range.1 hc))
  rw [hy, List.getElem?_eq_getElem (List.mem_range.1 hc), Option.map_some, Option.map_some, hown]

theorem callsOf_append {v : World} (hcalls : v.calls = w.calls ++ [x]) (s : Nat) :
    v.callsOf s = w.callsOf s ++ if x.owner = s then [w.calls.length] else [] := by
  have hold : ∀ c ∈ List.range w.calls.length,
      ((w.calls ++ [x])[c]?.map (·.owner) == some s) = (w.calls[c]?.map (·.owner) == some s) := by
    intro c hc
    rw [List.getElem?_append_left (List.mem_range.1 hc)]
  rw [callsOf, hcalls, List.length_append, List.length_singleton, List.range_succ,
    List.filter_append, List.filter_congr hold]
  congr 1
  by_cases hx : x.owner = s
  · simp [hx]
  · simp [hx]

end

end World

/-! ## The invariant -/

/-- The calls of a socket, oldest first, and its mark. All calls are completed if there is no mark; else it stands
for the newest one, and the others are completed. `r` is whether the marked one is completed, too. -/
inductive Mark (done : Nat → Bool) : List Nat → Option Nat → Prop → Prop
  | free {calls : List Nat} {r : Prop} (hdone : ∀ d ∈ calls, done d = true) (hr : ¬ r) : Mark done calls none r
  | held {older : List Nat} {c : Nat} {r : Prop} (hdone : ∀ d ∈ older, done d = true) (hr : r ↔ done c = true) :
    Mark done (older ++ [c]) (some c) r

namespace Mark

variable {done : Nat → Bool} {calls : List Nat} {mark : Option Nat} {r : Prop}

/-- A mark stands for the newest call. -/
theorem newest (h : Mark done calls (some c) r) :
    (r ↔ done c = true) ∧ ∃ older, calls = older ++ [c] ∧ ∀ d ∈ older, done d = true := by
  cases h with
  | held hdone hr => exact ⟨hr, _, rfl, hdone⟩

theorem issue (h : Mark done calls none r) (hc : done c = false) : Mark done (calls ++ [c]) (some c) r := by
  cases h with
  | free hdone hr => exact .held hdone (by simp [hr, hc])

variable (h : Mark done calls mark r)
include h

/-- What is outstanding is marked, unless the mark stands for a completed call. -/
theorem outstanding (hr : ¬ r) : calls.filter (fun c => !done c) = mark.toList := by
  have hnil : ∀ {ds : List Nat}, (∀ d ∈ ds, done d = true) → ds.filter (fun c => !done c) = [] := by
    intro ds hds
    rw [List.filter_eq_nil_iff]
    intro d hd
    simp [hds d hd]
  cases h with
  | free hdone => exact hnil hdone
  | held hdone hiff =>
    rw [hiff, Bool.not_eq_true] at hr
    simp [hnil hdone, hr]

theorem eq_some (hc : c ∈ calls) (hopen : done c = false) : mark = some c := by
  have hnot : ∀ {ds : List Nat}, (∀ d ∈ ds, done d = true) → c ∉ ds := by
    intro ds hds hmem
    rw [hds c hmem] at hopen
    cases hopen
  cases h with
  | free hdone => exact absurd hc (hnot hdone)
  | held hdone => rw [List.mem_singleton.1 ((List.mem_append.1 hc).resolve_left (hnot hdone))]

/-- A call is completed. -/
theorem complete {done' : Nat → Bool} (hc : done c = false) (hnow : ∀ d, done' d = true ↔ done d = true ∨ c = d) :
    Mark done' calls mark (r ∨ c ∈ calls) := by
  have hold : ∀ {ds : List Nat}, (∀ d ∈ ds, done d = true) → (∀ d ∈ ds, done' d = true) ∧ c ∉ ds := by
    refine fun hds => ⟨fun d hd => (hnow d).2 (Or.inl (hds d hd)), fun hmem => ?_⟩
    rw [hds c hmem] at hc
    cases hc
  cases h with
  | free hdone hr => exact .free (hold hdone).1 (not_or.2 ⟨hr, (hold hdone).2⟩)
  | held hdone hr =>
    refine .held (hold hdone).1 ?_
    rw [hnow, hr, List.mem_append, List.mem_singleton, or_iff_right (hold hdone).2]

theorem delivering (hr : r) : ∃ c, mark = some c ∧ done c = true := by
  cases h with
  | free _ hnot => exact absurd hr hnot
  | held _ hiff => exact ⟨_, rfl, hiff.1 hr⟩

/-- The mark of a completed call is taken away. -/
theorem unmark (hr : r) {q : Prop} (hq : ¬ q) : Mark done calls none q := by
  cases h with
  | free _ hnot => exact absurd hr hnot
  | held hdone hiff =>
    refine .free (fun d hd => ?_) hq
    rcases List.mem_append.1 hd with hd | hd
    · exact hdone d hd
    · rw [List.mem_singleton.1 hd]
      exact hiff.1 hr

end Mark

/-- Marks of sockets and outstanding calls belong together; `R` are the sockets whose mark stands for
a call that is completed already. -/
structure Flights (R : Nat → Prop) (taken : List Task) (w : World) : Prop where
  owned : ∀ (c : Nat) (x : Call), w.calls[c]? = some x → x.owner < w.sockets.length
  marks : ∀ s, Mark (completed taken) (w.callsOf s) (w.socket s).inflight (R s)
  aborted : ∀ (c : Nat) (x : Call), w.calls[c]? = some x → x.aborted = true →
    succeeded taken c = true
  released : ∀ (c : Nat) (x : Call), w.calls[c]? = some x → succeeded taken c = true →
    x.aborted = true ∨ (w.socket x.owner).inflight = some c
  /-- A socket whose handshake is queued has issued nothing. -/
  fresh : ∀ s, Task.establish s ∈ w.loop.queue → s < w.sockets.length ∧
    (w.socket s).state ≠ .opened ∧ ∀ (c : Nat) (x : Call), w.calls[c]? = some x → x.owner ≠ s
  once : ((taken ++ w.loop.queue).filterMap Task.once?).Nodup
  /-- Handshakes are those of sockets that were created. -/
  created : ∀ s, Once.establish s ∈ taken.filterMap Task.once? → s < w.sockets.length
  /-- Completions are those of calls that were answered. -/
  answered : ∀ c, Once.complete c ∈ (taken ++ w.loop.queue).filterMap Task.once? →
    ∃ x, w.calls[c]? = some x ∧ x.answered = true

namespace Flights

variable {R : Nat → Prop} {w v : World}

variable (h : Flights R taken w)
include h

/-- An outstanding call is marked by its socket. -/
theorem flying {x : Call} (hx : w.calls[c]? = some x) (hc : completed taken c = false) :
    (w.socket x.owner).inflight = some c :=
  (h.marks x.owner).eq_some (World.mem_callsOf.2 ⟨x, hx, rfl⟩) hc

/-- A mark stands for a call of the socket, its newest one. -/
theorem newest (hc : (w.socket s).inflight = some c) : (R s ↔ completed taken c = true) ∧
    ∃ older, w.callsOf s = older ++ [c] ∧ ∀ d ∈ older, completed taken d = true := by
  have hmark := h.marks s
  rw [hc] at hmark
  exact hmark.newest

theorem marked (hc : (w.socket s).inflight = some c) : ∃ x, w.calls[c]? = some x ∧ x.owner = s := by
  obtain ⟨-, older, hof, -⟩ := h.newest hc
  exact World.mem_callsOf.1 (by simp [hof])

/-- The calls of a socket that has one in flight: that one is the newest, and all others are
completed. -/
theorem callsOf_of_flying {x : Call} (hx : w.calls[c]? = some x) (hc : completed taken c = false) :
    ∃ older, w.callsOf x.owner = older ++ [c] ∧ ∀ d ∈ older, d < c ∧ completed taken d = true := by
  obtain ⟨-, older, hof, hdone⟩ := h.newest (h.flying hx hc)
  have hsorted := w.callsOf_sorted x.owner
  rw [hof, List.pairwise_append] at hsorted
  exact ⟨older, hof, fun d hd => ⟨hsorted.2.2 d hd c List.mem_cons_self, hdone d hd⟩⟩

/-- Nothing but calls, loop, marks and openings matters. -/
theorem congr (hcalls : v.calls = w.calls) (hloop : v.loop = w.loop)
    (hsize : v.sockets.length = w.sockets.length)
    (hinflight : ∀ s, (v.socket s).inflight = (w.socket s).inflight)
    (hopened : ∀ s, Task.establish s ∈ w.loop.queue → (v.socket s).state = .opened →
      (w.socket s).state = .opened) : Flights R taken v where
  owned := by simpa only [hcalls, hsize] using h.owned
  marks := by simpa only [World.callsOf, hcalls, hinflight] using h.marks
  aborted := by simpa only [hcalls] using h.aborted
  released := by simpa only [hcalls, hinflight] using h.released
  fresh s hs := by
    rw [hloop] at hs
    obtain ⟨h1, h2, h3⟩ := h.fresh s hs
    refine ⟨hsize ▸ h1, fun ho => h2 (hopened s hs ho), ?_⟩
    rw [hcalls]
    exact h3
  once := by simpa only [hloop] using h.once
  created := by simpa only [hsize] using h.created
  answered := by simpa only [hcalls, hloop] using h.answered

theorem quiet (q : Quiet w v) : Flights R taken v :=
  h.congr q.calls q.loop q.size q.inflight fun s _ => q.opened s

theorem mono_R {S : Nat → Prop} (hS : ∀ s, R s ↔ S s) : Flights S taken w := by
  obtain rfl : R = S := funext fun s => propext (hS s)
  exact h

/-- A call whose completion is queued is outstanding. -/
theorem not_completed_of_queue (ht : t ∈ w.loop.queue)
    (hc : t.once? = some (.complete c)) : completed taken c = false := by
  rw [Bool.eq_false_iff, ne_eq, completed_iff]
  intro hm
  have hnodup := h.once
  rw [List.filterMap_append, List.nodup_append] at hnodup
  exact hnodup.2.2 _ hm _ (List.mem_filterMap.2 ⟨t, ht, hc⟩) rfl

/-- No completion was taken of a call that was not issued. -/
theorem not_completed_of_none (hc : w.calls[c]? = none) : completed taken c = false := by
  rw [Bool.eq_false_iff, ne_eq, completed_iff]
  intro hm
  obtain ⟨x, hx, -⟩ := h.answered c
    (by rw [List.filterMap_append]; exact List.mem_append_left _ hm)
  cases hc.symm.trans hx

/-- A call that nobody has answered is outstanding, and its completion is not queued. -/
theorem not_answered {x : Call} (hx : w.calls[c]? = some x) (ha : x.answered = false) :
    Once.complete c ∉ (taken ++ w.loop.queue).filterMap Task.once? := by
  intro hm
  obtain ⟨y, hy, hans⟩ := h.answered c hm
  rw [hx, Option.some.injEq] at hy
  rw [hy, hans] at ha
  cases ha

/-- A call that has succeeded has not failed. -/
theorem not_failed_of_succeeded (hc : succeeded taken c = true) : failed taken c = false := by
  rw [Bool.eq_false_iff]
  intro hf
  obtain ⟨t, ht, hsucc⟩ := List.any_eq_true.1 hc
  obtain ⟨u, hu, hfail⟩ := List.any_eq_true.1 hf
  have honce := h.once
  rw [List.filterMap_append, List.nodup_append] at honce
  -- both tasks complete the call, and a call is completed once
  have heq : t = u := eq_of_nodup_filterMap honce.1 ht hu
    (Task.once?_eq_complete.2 (Or.inl hsucc)) (Task.once?_eq_complete.2 (Or.inr hfail))
  subst heq
  cases t with
  | succeed => cases hfail
  | _ => cases hsucc

/-! ## Taking a task -/

/-- A task that completes no call. -/
theorem take (hn : w.loop.next? = some (t, l))
    (ht : ∀ c, t.once? ≠ some (.complete c)) : Flights R (taken ++ [t]) { w with loop := l } := by
  have hq := queue_of_next? hn
  have hcomplete := Task.of_not_completion ht
  have hsucc : ∀ c, succeeded (taken ++ [t]) c = succeeded taken c := by
    intro c
    rw [succeeded_append, (hcomplete c).1, Bool.or_false]
  have hcomp : completed (taken ++ [t]) = completed taken := by
    funext c
    rw [completed_append, (hcomplete c).1, (hcomplete c).2, Bool.or_false, Bool.or_false]
  have hall : taken ++ [t] ++ l.queue = taken ++ w.loop.queue := by simp [hq]
  exact
    { owned := h.owned
      marks s := hcomp ▸ h.marks s
      aborted := by simpa only [hsucc] using h.aborted
      released c x hx hc := h.released c x hx (by rwa [hsucc] at hc)
      fresh s hs := h.fresh s (hq ▸ List.mem_cons_of_mem t hs)
      once := by simpa only [hall] using h.once
      created s hs := by
        rw [List.filterMap_append, List.mem_append] at hs
        rcases hs with hs | hs
        · exact h.created s hs
        · obtain ⟨u, hu, hs⟩ := List.mem_filterMap.1 hs
          rw [List.mem_singleton.1 hu, Task.once?_eq_establish] at hs
          exact (h.fresh s (by rw [hq, hs]; exact List.mem_cons_self)).1
      answered := by simpa only [hall] using h.answered }

/-- The call that a task completes was issued, was not aborted, and is marked. -/
theorem call_of_completion (hn : w.loop.next? = some (t, l)) (ht : t.once? = some (.complete c)) :
    completed taken c = false ∧ ∃ x, w.calls[c]? = some x ∧ x.aborted = false ∧
      (w.socket x.owner).inflight = some c := by
  have hmem : t ∈ w.loop.queue := by
    rw [queue_of_next? hn]
    exact List.mem_cons_self
  have hc := h.not_completed_of_queue hmem ht
  obtain ⟨x, hx, -⟩ := h.answered c
    (List.mem_filterMap.2 ⟨t, List.mem_append_right _ hmem, ht⟩)
  refine ⟨hc, x, hx, ?_, h.flying hx hc⟩
  rw [Bool.eq_false_iff]
  intro ha
  rw [completed_of_succeeded (h.aborted c x hx ha)] at hc
  cases hc

/-- A task that completes a call: from now on the mark of its socket stands for a completed call. -/
theorem take_completion (hn : w.loop.next? = some (t, l))
    (ht : t.once? = some (.complete c)) {x : Call} (hx : w.calls[c]? = some x) :
    Flights (fun s => R s ∨ s = x.owner) (taken ++ [t]) { w with loop := l } := by
  have hq := queue_of_next? hn
  obtain ⟨hc, y, hy, -, hmark⟩ := h.call_of_completion hn ht
  obtain rfl : x = y := Option.some.inj (hx.symm.trans hy)
  have hone : ∀ d, (t.succeeds d || t.fails d) = true ↔ c = d := by
    intro d
    rw [Bool.or_eq_true, ← Task.once?_eq_complete, ht, Option.some.injEq, Once.complete.injEq]
  have hcomp : ∀ d, completed (taken ++ [t]) d = true ↔ completed taken d = true ∨ c = d := by
    intro d
    rw [completed_append, Bool.or_eq_true, hone]
  have hsucc : ∀ d, succeeded (taken ++ [t]) d = true → succeeded taken d = true ∨ c = d := by
    intro d hd
    rw [succeeded_append, Bool.or_eq_true] at hd
    exact hd.imp_right fun hs => (hone d).1 (by rw [hs, Bool.true_or])
  have hall : taken ++ [t] ++ l.queue = taken ++ w.loop.queue := by simp [hq]
  exact
    { owned := h.owned
      marks s := by
        have howner : s = x.owner ↔ c ∈ w.callsOf s := by
          rw [World.mem_callsOf, hx]
          simp [eq_comm]
        rw [howner]
        exact (h.marks s).complete hc hcomp
      aborted d y hy hd := by
        rw [succeeded_append, h.aborted d y hy hd, Bool.true_or]
      released d y hy hd := by
        rcases hsucc d hd with hd | rfl
        · exact h.released d y hy hd
        · obtain rfl : x = y := Option.some.inj (hx.symm.trans hy)
          exact Or.inr hmark
      fresh s hs := h.fresh s (hq ▸ List.mem_cons_of_mem _ hs)
      once := by simpa only [hall] using h.once
      created s hs := by
        rw [List.filterMap_append, List.mem_append] at hs
        exact h.created s (hs.resolve_right (by simp [ht]))
      answered := by simpa only [hall] using h.answered }

/-! ## Marks -/

/-- The mark of a completed call is taken away; if the call has succeeded it was aborted before. -/
theorem unmark (hs : R s) (hdone : ∀ (c : Nat) (x : Call), w.calls[c]? = some x → x.owner = s →
      succeeded taken c = true → x.aborted = true) :
    Flights (fun r => R r ∧ r ≠ s) taken (w.update s fun x => { x with inflight := none }) := by
  set v := w.update s fun x => { x with inflight := none }
  have hsize : v.sockets.length = w.sockets.length := w.length_sockets_update s _
  have hfly : ∀ r, (v.socket r).inflight = if r = s then none else (w.socket r).inflight :=
    w.inflight_unmark s
  exact
    { owned d x hx := hsize ▸ h.owned d x hx
      marks r := by
        rw [hfly]
        split
        next hr => exact hr ▸ (h.marks r).unmark (hr ▸ hs) (by simp)
        next hr =>
          rw [and_iff_left hr]
          exact h.marks r
      __ := h
      released d x hx hd := by
        by_cases hown : x.owner = s
        · exact Or.inl (hdone d x hx hown hd)
        · rw [hfly, if_neg hown]
          exact h.released d x hx hd
      fresh r hr := by
        obtain ⟨h1, h2, h3⟩ := h.fresh r hr
        exact ⟨hsize ▸ h1, by rw [World.state_unmark]; exact h2, h3⟩
      created r hr := hsize ▸ h.created r hr
      answered := h.answered }

/-- A call may be aborted once it has succeeded, and answered. -/
theorem reflag (hsockets : v.sockets = w.sockets) (hloop : v.loop = w.loop) {f : Call → Call}
    (hcalls : v.calls = w.calls.modify c f) (howner : ∀ x, (f x).owner = x.owner)
    (habort : ∀ x, x.aborted = true → (f x).aborted = true)
    (hdone : ∀ x, (f x).aborted = true → x.aborted = true ∨ succeeded taken c = true)
    (hanswer : ∀ x, x.answered = true → (f x).answered = true) : Flights R taken v := by
  have hsock : ∀ s, v.socket s = w.socket s := World.socket_of_sockets_eq hsockets
  have hget : ∀ d : Nat, v.calls[d]? = w.calls[d]?.map fun x => if c = d then f x else x := by
    intro d
    rw [hcalls, List.getElem?_modify]
    rfl
  have hback : ∀ (d : Nat) (x : Call), v.calls[d]? = some x →
      ∃ y, w.calls[d]? = some y ∧ x.owner = y.owner ∧ (y.aborted = true → x.aborted = true) ∧
        (x.aborted = true → y.aborted = true ∨ succeeded taken d = true) := by
    intro d x hx
    rw [hget, Option.map_eq_some_iff] at hx
    obtain ⟨y, hy, rfl⟩ := hx
    refine ⟨y, hy, ?_⟩
    split
    next hd => exact ⟨howner y, habort y, hd ▸ hdone y⟩
    next => exact ⟨rfl, id, Or.inl⟩
  have hof : ∀ s, v.callsOf s = w.callsOf s := by
    intro s
    rw [World.callsOf, World.callsOf, hcalls, List.length_modify]
    refine List.filter_congr fun d _ => ?_
    rw [← hcalls, hget]
    cases w.calls[d]? with
    | none => rfl
    | some x => by_cases hd : c = d <;> simp [hd, howner]
  exact
    { owned d x hx := by
        obtain ⟨y, hy, hown, -⟩ := hback d x hx
        rw [hown, hsockets]
        exact h.owned d y hy
      marks := by simpa only [hof, hsock] using h.marks
      aborted d x hx ha := by
        obtain ⟨y, hy, -, -, hdone⟩ := hback d x hx
        exact (hdone ha).elim (h.aborted d y hy) id
      released d x hx hd := by
        obtain ⟨y, hy, hown, habort, -⟩ := hback d x hx
        rw [hown, hsock]
        exact (h.released d y hy hd).imp_left habort
      fresh s hs := by
        rw [hloop] at hs
        obtain ⟨h1, h2, h3⟩ := h.fresh s hs
        refine ⟨by rwa [hsockets], by rwa [hsock], ?_⟩
        intro d x hx
        obtain ⟨y, hy, hown, -⟩ := hback d x hx
        rw [hown]
        exact h3 d y hy
      once := by simpa only [hloop] using h.once
      created := by simpa only [hsockets] using h.created
      answered c hc := by
        rw [hloop] at hc
        obtain ⟨x, hx, ha⟩ := h.answered c hc
        refine ⟨_, by rw [hget, hx, Option.map_some], ?_⟩
        split
        · exact hanswer x ha
        · exact ha }

/-- The end of a delivery: the call that has succeeded is aborted and its mark taken away. -/
theorem release (hs : R s) (hok : ∀ c, (w.socket s).inflight = some c → succeeded taken c = true) :
    Flights (fun r => R r ∧ r ≠ s) taken (w.release s) := by
  obtain ⟨c, hmark, -⟩ := (h.marks s).delivering hs
  have hrel : w.release s = (w.abort c).update s fun x => { x with inflight := none } := by
    rw [World.release, hmark]
  -- first the call is aborted, then its mark goes
  have hab : Flights R taken (w.abort c) :=
    h.reflag (w.sockets_abort c) (w.loop_abort c) (w.calls_abort c) (fun _ => rfl)
      (fun _ _ => rfl) (fun _ _ => Or.inr (hok c hmark)) fun _ => id
  rw [hrel]
  refine hab.unmark hs fun d x hx hown hd => ?_
  rcases hab.released d x hx hd with ha | hm
  · exact ha
  · -- the only marked call of the socket is the one that was just aborted
    rw [hown, World.socket_of_sockets_eq (w.sockets_abort c), hmark, Option.some.injEq] at hm
    subst hm
    rw [w.calls_abort, List.getElem?_modify_eq] at hx
    obtain ⟨y, -, rfl⟩ := Option.map_eq_some_iff.1 hx
    rfl

/-- A socket without a mark issues a call and marks it. -/
theorem issue (hs : s < w.sockets.length) (hfree : (w.socket s).inflight = none)
    (hnot : Task.establish s ∉ w.loop.queue) (body : Option (List UInt8)) (batch : Option (List String)) :
    Flights R taken (w.issue s body batch) := by
  set v := w.issue s body batch with hv
  have hfly := fun r => w.inflight_issue (r := r) hs body batch
  have hsize : v.sockets.length = w.sockets.length := w.length_sockets_update s _
  have hget : ∀ (d : Nat) (y : Call), v.calls[d]? = some y →
      w.calls[d]? = some y ∨ d = w.calls.length ∧ y = w.fresh s body batch :=
    fun _ _ hy => World.call_of_append (w.calls_issue s body batch) hy
  have hold : ∀ (d : Nat) (y : Call), w.calls[d]? = some y → v.calls[d]? = some y := by
    intro d y hy
    rw [World.calls_issue, List.getElem?_append_left (List.getElem?_eq_some_iff.1 hy).1, hy]
  have hopen : completed taken w.calls.length = false :=
    h.not_completed_of_none (List.getElem?_eq_none le_rfl)
  exact
    { owned d y hy := by
        rcases hget d y hy with hy | ⟨-, rfl⟩
        · exact hsize ▸ h.owned d y hy
        · exact hsize ▸ hs
      marks r := by
        have hmark := h.marks r
        have hof : v.callsOf r = w.callsOf r ++ if s = r then [w.calls.length] else [] :=
          World.callsOf_append (w.calls_issue s body batch) r
        rw [hof, hfly]
        by_cases hr : r = s
        · subst hr
          rw [hfree] at hmark
          rw [if_pos rfl, if_pos rfl]
          exact hmark.issue hopen
        · rw [if_neg hr, if_neg (Ne.symm hr), List.append_nil]
          exact hmark
      aborted d y hy ha := by
        rcases hget d y hy with hy | ⟨-, rfl⟩
        · exact h.aborted d y hy ha
        · cases ha
      released d y hy hd := by
        rcases hget d y hy with hy | ⟨rfl, -⟩
        · refine (h.released d y hy hd).imp_right fun hm => ?_
          rw [hfly, if_neg]
          · exact hm
          · intro hown
            rw [hown, hfree] at hm
            cases hm
        · rw [completed_of_succeeded hd] at hopen
          cases hopen
      fresh r hr := by
        obtain ⟨h1, h2, h3⟩ := h.fresh r hr
        refine ⟨hsize ▸ h1, by rw [World.state_issue]; exact h2, ?_⟩
        intro d y hy hown
        rcases hget d y hy with hy | ⟨-, rfl⟩
        · exact h3 d y hy hown
        · obtain rfl : s = r := hown
          exact hnot hr
      once := h.once
      created r hr := hsize ▸ h.created r hr
      answered c hc := by
        obtain ⟨x, hx, ha⟩ := h.answered c hc
        exact ⟨x, hold c x hx, ha⟩ }

/-- A socket whose handshake is not queued may open. -/
theorem opened (hnot : Task.establish s ∉ w.loop.queue) :
    Flights R taken (w.update s fun x => { x with state := .opened }) := by
  refine h.congr rfl rfl (w.length_sockets_update s _)
    (w.field_update s (fun x => { x with state := .opened }) (·.inflight) fun _ => rfl) ?_
  intro r hr ho
  rw [World.socket_update] at ho
  split at ho
  next heq => exact absurd (heq.1 ▸ hr) hnot
  next => exact ho

/-! ## The loop -/

/-- A task is posted that is not one of those posted before. -/
theorem post (hnew : ∀ o, t.once? = some o → o ∉ (taken ++ w.loop.queue).filterMap Task.once?)
    (hfresh : ∀ s, t = .establish s → s < w.sockets.length ∧ (w.socket s).state ≠ .opened ∧
      ∀ (c : Nat) (x : Call), w.calls[c]? = some x → x.owner ≠ s)
    (hanswered : ∀ c, t.once? = some (.complete c) →
      ∃ x, w.calls[c]? = some x ∧ x.answered = true) :
    Flights R taken (w.post t).1 := by
  show Flights R taken { w with loop := (w.loop.post t).1 }
  unfold Loop.post
  split
  · exact h
  · refine
      { h with fresh := ?_, once := ?_, answered := ?_ }
    · intro s hs
      rcases List.mem_append.1 hs with hs | hs
      · exact h.fresh s hs
      · exact hfresh s (List.mem_singleton.1 hs).symm
    · rw [← List.append_assoc, List.filterMap_append, List.nodup_append]
      refine ⟨h.once, ?_, ?_⟩
      · cases ho : t.once? with
        | none => simp [ho]
        | some o => simp [ho]
      · intro o ho p hp heq
        obtain ⟨u, hu, hp⟩ := List.mem_filterMap.1 hp
        rw [List.mem_singleton.1 hu] at hp
        exact hnew p hp (heq ▸ ho)
    · intro c hc
      rw [← List.append_assoc, List.filterMap_append] at hc
      rcases List.mem_append.1 hc with hc | hc
      · exact h.answered c hc
      · obtain ⟨u, hu, hc⟩ := List.mem_filterMap.1 hc
        rw [List.mem_singleton.1 hu] at hc
        exact hanswered c hc

/-- An operation of the program or of a handler is posted. -/
theorem post_of_none (ht : t.once? = none) : Flights R taken (w.post t).1 := by
  refine h.post ?_ ?_ ?_
  · intro o ho
    cases ht.symm.trans ho
  · rintro s rfl
    cases ht
  · intro c hc
    cases ht.symm.trans hc

/-- The completion of a call that nobody has answered is posted. -/
theorem answer (hc : w.awaits c = true) (ht : t.once? = some (.complete c)) :
    Flights R taken (w.answer c t).1 := by
  unfold World.awaits at hc
  split at hc
  next x hx =>
    rw [Bool.not_eq_true'] at hc
    have hnot := h.not_answered hx hc
    have hflags : Flights R taken
        { w with calls := w.calls.modify c fun x => { x with answered := true } } :=
      h.reflag rfl rfl rfl (fun _ => rfl) (fun _ => id) (fun _ => Or.inl) fun _ _ => rfl
    refine hflags.post ?_ ?_ ?_
    · intro o ho
      rw [ht, Option.some.injEq] at ho
      exact ho ▸ hnot
    · rintro s rfl
      cases ht
    · intro d hd
      rw [ht, Option.some.injEq, Once.complete.injEq] at hd
      subst hd
      exact ⟨{ x with answered := true }, by rw [List.getElem?_modify_eq, hx]; rfl, rfl⟩
  next => cases hc

/-- The loop is closed. -/
theorem closeLoop : Flights R taken { w with loop := w.loop.close } :=
  { h with
    fresh s hs := by cases hs
    once := by
      refine h.once.sublist (List.Sublist.filterMap _ ?_)
      exact List.Sublist.append_left (List.nil_sublist _) _
    answered c hc := by
      refine h.answered c ?_
      rw [List.filterMap_append] at hc ⊢
      exact List.mem_append_left _ (by simpa [Loop.close] using hc) }

/-- A socket comes into being, unmarked and not open. -/
theorem addSocket {x : Socket} (hmark : x.inflight = none) : Flights R taken (w.addSocket x) := by
  have hsize : w.sockets.length ≤ (w.addSocket x).sockets.length := by simp [World.addSocket]
  have hfly : ∀ s, ((w.addSocket x).socket s).inflight = (w.socket s).inflight := by
    intro s
    rw [World.socket_addSocket]
    split
    next hs => rw [hmark, World.socket_of_le hs.ge]
    next => rfl
  have hcalls : (w.addSocket x).calls = w.calls := rfl
  exact
    { owned c y hy := lt_of_lt_of_le (h.owned c y hy) hsize
      marks s := by
        rw [hfly]
        exact h.marks s
      __ := h
      released := by simpa only [hcalls, hfly] using h.released
      fresh s hs := by
        obtain ⟨h1, h2, h3⟩ := h.fresh s hs
        refine ⟨lt_of_lt_of_le h1 hsize, ?_, h3⟩
        rwa [World.socket_addSocket, if_neg h1.ne]
      created s hs := lt_of_lt_of_le (h.created s hs) hsize
      answered := h.answered }

/-- A socket is created and its handshake posted. -/
theorem create (o : Options) :
    Flights R taken ((w.addSocket o.socket).post (.establish w.sockets.length)).1 := by
  have hadd : Flights R taken (w.addSocket o.socket) := h.addSocket rfl
  refine hadd.post ?_ ?_ ?_
  · intro p hp hm
    cases hp
    rw [List.filterMap_append, List.mem_append] at hm
    rcases hm with hm | hm
    · exact absurd (h.created _ hm) (lt_irrefl _)
    · obtain ⟨t, ht, hs⟩ := List.mem_filterMap.1 hm
      rw [Task.once?_eq_establish] at hs
      exact absurd (h.fresh _ (hs ▸ ht)).1 (lt_irrefl _)
  · intro s hs
    cases hs
    refine ⟨by simp [World.addSocket], ?_, fun c y hy => (h.owned c y hy).ne⟩
    rw [World.socket_addSocket, if_pos rfl]
    exact ReadyState.noConfusion
  · intro c hc
    cases hc

end Flights

end PollSocket.Socket
