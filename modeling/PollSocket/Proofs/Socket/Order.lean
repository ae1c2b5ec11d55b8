import PollSocket.Proofs.Socket.Growth

set_option autoImplicit false

/-!
# The order of tasks and duties

Tasks are taken in the order they were posted, and a socket posts its handshake when it is created: so
no task of a socket is taken before its handshake. A step puts what it plans in front of the agenda, so
that the consumer of a socket which has opened is called in the very next step. `Ordered` states both,
for all histories (`ordered_run`).
-/

namespace PollSocket.Socket

variable {duties : List Duty} {v w : World}

/-- The socket that a task is posted for; a completion is posted for a call. -/
def Task.target? : Task → Option Nat
  | .establish s => some s
  | .send s _ => some s
  | .close s => some s
  | .closeWhenDrained s => some s
  | .handle s _ _ => some s
  | .succeed _ _ => none
  | .fail _ => none

/-- The task may stand before another one: it is not one of a socket whose handshake is still to come. -/
def Task.Precedes (t u : Task) : Prop := ∀ s, u = .establish s → t.target? ≠ some s

/-- No socket is told below the first duty that it has opened. -/
def Prompt (agenda : List Duty) : Prop := ∀ s, Duty.emit s .opened ∉ agenda.tail

/-- Tasks and duties come in order. -/
structure Ordered (taken : List Task) (w : World) : Prop where
  /-- Tasks are those of sockets that exist. -/
  ranged : ∀ t ∈ taken ++ w.loop.queue, ∀ s, t.target? = some s → s < w.sockets.length
  first : (taken ++ w.loop.queue).Pairwise Task.Precedes
  prompt : Prompt w.agenda

theorem Prompt.append {rest : List Duty} (hduties : ∀ s, Duty.emit s .opened ∉ duties.tail)
    (hrest : ∀ s, Duty.emit s .opened ∉ rest) : Prompt (duties ++ rest) := by
  intro s hs
  cases duties with
  | nil => exact hrest s (List.mem_of_mem_tail hs)
  | cons d more =>
    rcases List.mem_append.1 hs with hs | hs
    · exact hduties s hs
    · exact hrest s hs

/-! ## What a step plans -/

namespace World

/-- The agenda grows in front, and at most its first duty tells that a socket has opened. -/
def Plans (w v : World) : Prop :=
  ∃ duties, v.agenda = duties ++ w.agenda ∧ ∀ s, Duty.emit s .opened ∉ duties.tail

theorem Plans.of_eq (h : v.agenda = w.agenda) : w.Plans v := ⟨[], h, by simp⟩

theorem Plans.push (h : v.agenda = w.agenda) (hduties : ∀ s, Duty.emit s .opened ∉ duties.tail) :
    w.Plans (v.push duties) :=
  ⟨duties, congrArg (duties ++ ·) h, hduties⟩

theorem agenda_drain (w : World) (s : Nat) : (w.drain s).agenda = w.agenda := by
  unfold drain
  dsimp only
  split <;> rfl

theorem agenda_close (w : World) (s : Nat) :
    (w.close s).agenda =
      (if (w.socket s).state = .closed then [] else [.emit s .closed]) ++ w.agenda := by
  unfold close
  dsimp only
  split <;> rfl

theorem plans_close (s : Nat) (h : v.agenda = w.agenda) : w.Plans (v.close s) := by
  refine ⟨_, (v.agenda_close s).trans (by rw [h]), fun r hr => ?_⟩
  split at hr <;> simp at hr

theorem plans_closeIfDrained (s : Nat) (h : v.agenda = w.agenda) : w.Plans (v.closeIfDrained s) := by
  unfold closeIfDrained
  dsimp only
  split
  · exact plans_close s h
  · exact .of_eq h

theorem plans_handshakeSucceeded (w : World) (s : Nat) (body : List UInt8) :
    w.Plans (w.handshakeSucceeded s body) := by
  have hagenda := w.agenda_release s
  unfold handshakeSucceeded
  cases decodeHandshakeResponse body with
  | error reason => exact .push hagenda (by simp)
  | ok id =>
    dsimp only
    split
    · exact .push hagenda (by simp)
    · exact .of_eq hagenda

theorem plans_drainFailed (w : World) (s : Nat) (batch : List String) (cause : Failure) :
    w.Plans (w.drainFailed s batch cause) := by
  unfold drainFailed
  dsimp only
  split
  · split <;> exact plans_close s rfl
  · split <;> exact .of_eq rfl

theorem plans_execute (w : World) (t : Task) : w.Plans (w.execute t) := by
  cases t with
  | establish s => exact .of_eq rfl
  | send s text =>
    show w.Plans (w.send s text)
    unfold send
    dsimp only
    split
    · exact .of_eq rfl
    · exact .of_eq (agenda_drain _ s)
  | close s => exact plans_close s rfl
  | closeWhenDrained s => exact plans_closeIfDrained s rfl
  | handle s slot script => exact .of_eq rfl
  | succeed c body =>
    simp only [execute]
    split
    · exact .of_eq rfl
    next x _ =>
      split
      · exact w.plans_handshakeSucceeded x.owner body
      · unfold drainSucceeded
        split
        · exact .push (w.agenda_release x.owner) (by simp)
        · exact .push rfl (by simp)
  | fail c =>
    simp only [execute]
    split
    · exact .of_eq rfl
    next x _ =>
      split
      · exact .of_eq rfl
      · split
        · exact .push rfl (by simp)
        · exact w.plans_drainFailed _ _ _

/-! ## What a step posts -/

theorem Works.loop {s : Nat} (h : w.Works s v) : v.loop = w.loop := by
  induction h with
  | rest => rfl
  | update _ _ ih | log _ _ _ _ ih | push _ _ _ ih | issue _ _ _ ih => exact ih
  | release _ ih => rw [loop_release, ih]

/-- Tasks post nothing. -/
theorem loop_execute (w : World) (t : Task) : (w.execute t).loop = w.loop := by
  cases hhost : t.host? w with
  | none => rw [execute_of_host?_none hhost]
  | some s => exact Works.loop (.execute hhost)

theorem agenda_create (w : World) (o : Options) : (w.create o).agenda = w.agenda := by
  rw [create_eq]
  split <;> rfl

end World

namespace Ordered

variable {taken : List Task}

section

variable (h : Ordered taken w)
include h

/-- Another agenda, on the same loop. -/
theorem replan (hloop : v.loop = w.loop)
    (hsize : v.sockets.length = w.sockets.length) (hprompt : Prompt v.agenda) : Ordered taken v where
  ranged := by
    rw [hloop, hsize]
    exact h.ranged
  first := by
    rw [hloop]
    exact h.first
  prompt := hprompt

/-- A task is posted that is not a handshake. -/
theorem post {t : Task} (honce : ∀ s, t ≠ .establish s)
    (hrange : ∀ s, t.target? = some s → s < w.sockets.length) : Ordered taken (w.post t).1 := by
  have hqueue : ∃ ts, (∀ u ∈ ts, u = t) ∧ (w.post t).1.loop.queue = w.loop.queue ++ ts := by
    show ∃ ts, _ ∧ (w.loop.post t).1.queue = _
    unfold Loop.post
    split
    · exact ⟨[], by simp, (List.append_nil _).symm⟩
    · exact ⟨[t], by simp, rfl⟩
  obtain ⟨ts, hts, hq⟩ := hqueue
  constructor
  · intro u hu s hs
    rw [hq, ← List.append_assoc, List.mem_append] at hu
    rcases hu with hu | hu
    · exact h.ranged u hu s hs
    · exact hrange s (by rwa [← hts u hu])
  · rw [hq, ← List.append_assoc, List.pairwise_append]
    refine ⟨h.first, ?_, fun u _ t' ht s hs => absurd ((hts t' ht).symm.trans hs) (honce s)⟩
    refine List.pairwise_of_forall_mem_list fun u _ t' ht s hs => ?_
    exact absurd ((hts t' ht).symm.trans hs) (honce s)
  · exact h.prompt

theorem postOr {t : Task} (honce : ∀ s, t ≠ .establish s)
    (hrange : ∀ s, t.target? = some s → s < w.sockets.length) (refused : Failure → Note) :
    Ordered taken (w.postOr t refused) := by
  have hposted := h.post honce hrange
  unfold World.postOr
  dsimp only
  split
  · exact hposted
  · exact hposted.replan rfl rfl hposted.prompt

/-- A call is answered: its completion is for no socket. -/
theorem answer (c : Nat) {t : Task} (ht : t.target? = none) : Ordered taken (w.answer c t).1 := by
  have hposted := h.post (t := t) (fun s hs => by rw [hs] at ht; cases ht) fun s hs => by rw [ht] at hs; cases hs
  exact ⟨hposted.ranged, hposted.first, hposted.prompt⟩

theorem closeLoop : Ordered taken { w with loop := w.loop.close } where
  ranged t ht := by
    refine h.ranged t (List.mem_append_left _ ?_)
    simpa [Loop.close] using ht
  first := by
    have htaken := (List.pairwise_append.1 h.first).1
    simpa [Loop.close] using htaken
  prompt := h.prompt

/-- A socket is created: its handshake comes after the tasks of all others. -/
theorem create (o : Options) : Ordered taken (w.create o) := by
  have q := Quiet.create w o
  have hsize : (w.create o).sockets.length = w.sockets.length + 1 := by
    rw [q.size]
    show (w.sockets ++ [o.socket]).length = _
    simp
  have hqueue : (w.create o).loop.queue = w.loop.queue ∨
      (w.create o).loop.queue = w.loop.queue ++ [.establish w.sockets.length] := by
    rw [q.loop]
    show (w.loop.post _).1.queue = _ ∨ (w.loop.post _).1.queue = _
    unfold Loop.post
    split
    · exact Or.inl rfl
    · exact Or.inr rfl
  refine ⟨?_, ?_, by rw [World.agenda_create]; exact h.prompt⟩
  · rw [hsize]
    intro t ht s hs
    rcases hqueue with hq | hq
    · rw [hq] at ht
      exact Nat.lt_succ_of_lt (h.ranged t ht s hs)
    · rw [hq, ← List.append_assoc, List.mem_append] at ht
      rcases ht with ht | ht
      · exact Nat.lt_succ_of_lt (h.ranged t ht s hs)
      · cases List.mem_singleton.1 ht
        cases hs
        exact Nat.lt_succ_self _
  · rcases hqueue with hq | hq
    · rw [hq]
      exact h.first
    · rw [hq, ← List.append_assoc, List.pairwise_append]
      refine ⟨h.first, List.pairwise_singleton _ _, fun t ht u hu s hs hts => ?_⟩
      rw [List.mem_singleton.1 hu] at hs
      cases hs
      exact Nat.lt_irrefl _ (h.ranged t ht _ hts)

/-! ## Handlers -/

variable (hin : insideHandler w.agenda = true)
include hin

theorem throw (hnested : Nested w.agenda) (value : Thrown) : Ordered taken (w.throw value) := by
  obtain ⟨acts, s, event, rest, hagenda, -, hunwind, -⟩ := unwind_nested hin hnested
  have hrest : ∀ r, Duty.emit r .opened ∉ rest := by
    intro r hr
    refine h.prompt r ?_
    rw [hagenda]
    cases acts with
    | nil => exact hr
    | cons a more => exact List.mem_append_right _ (List.mem_cons_of_mem _ hr)
  have hdropped : Prompt rest := fun r hr => hrest r (List.mem_of_mem_tail hr)
  have hcaught : ∀ cause, Prompt ([.emit s (.error cause)] ++ rest) := fun cause =>
    .append (by simp) hrest
  unfold World.throw
  rw [hunwind]
  dsimp only
  split
  · exact h.replan rfl rfl (hcaught _)
  · exact h.replan rfl rfl (hcaught _)
  · exact h.replan rfl rfl hdropped
  · exact h.replan rfl rfl hdropped

/-- While a handler is being executed no socket is to be told that it has opened. -/
theorem not_opened (r : Nat) : Duty.emit r .opened ∉ w.agenda := by
  intro hr
  have hprompt := h.prompt r
  cases hagenda : w.agenda with
  | nil =>
    rw [hagenda] at hr
    cases hr
  | cons d rest =>
    rw [hagenda] at hr hprompt hin
    rcases List.mem_cons.1 hr with rfl | hr
    · cases hin
    · exact hprompt hr

/-- An act of the handler that is being executed. -/
theorem perform (hnested : Nested w.agenda) {s : Nat} (hs : s < w.sockets.length) (data : String) (a : Act) :
    Ordered taken (w.perform s data a) := by
  have hrange : ∀ {t : Task}, t.target? = some s → ∀ r, t.target? = some r → r < w.sockets.length := by
    intro t ht r hr
    cases ht.symm.trans hr
    exact hs
  have hnone := h.not_opened hin
  cases a with
  | closeLoop => exact h.closeLoop
  | throw value => exact h.throw hin hnested value
  | replace | remove =>
    refine h.post ?_ (hrange rfl)
    rintro r hr
    cases hr
  | whenData expected script =>
    simp only [World.perform]
    split
    · refine h.replan rfl rfl (.append ?_ hnone)
      intro r hr
      obtain ⟨b, -, hb⟩ := List.mem_map.1 (List.mem_of_mem_tail hr)
      cases hb
    · exact h
  | runLoop => exact h.replan rfl rfl (.append (by simp) hnone)
  | report => exact h.replan rfl rfl h.prompt
  | _ =>
    refine h.postOr ?_ (hrange rfl) _
    rintro r hr
    cases hr

end

/-- The first duty is done. -/
theorem step {b : Books} (h : Ordered b.taken w) (hshape : AgendaShape w.sockets.length w.agenda) :
    Ordered (w.booked b).taken w.step := by
  unfold World.step World.booked World.taking? World.emitting?
  cases hagenda : w.agenda with
  | nil => exact h
  | cons d rest =>
    -- an opening can only be the first duty, so the rest of the agenda has none
    have hrest : ∀ s, Duty.emit s .opened ∉ rest := by
      have hprompt := h.prompt
      rw [hagenda] at hprompt
      exact hprompt
    have hpopped : Ordered b.taken { w with agenda := rest } :=
      h.replan rfl rfl fun s hs => hrest s (List.mem_of_mem_tail hs)
    have hplans : ∀ {v : World}, ({ w with agenda := rest } : World).Plans v → Prompt v.agenda := by
      rintro v ⟨duties, hv, hduties⟩
      rw [hv]
      exact .append hduties hrest
    have hjob : ∀ {j : Job} {s : Nat}, j.event? = none →
        ({ w with agenda := rest } : World).Plans (({ w with agenda := rest } : World).discharge (j.duty s)) →
        Ordered b.taken (({ w with agenda := rest } : World).discharge (j.duty s)) := by
      intro j s hj hplanned
      exact hpopped.replan (World.Works.discharge hj).loop (World.Grows.of_works (.discharge hj)).size
        (hplans hplanned)
    rw [hagenda] at hshape
    cases d with
    | run ran inside =>
      dsimp only [World.discharge]
      cases hn : w.loop.next? with
      | none =>
        cases inside with
        | none | some => exact hpopped.replan rfl rfl hpopped.prompt
      | some next =>
        obtain ⟨t, l⟩ := next
        set u : World := ({ w with agenda := rest, loop := l } : World).push [.run (ran + 1) inside]
        have hsize : (u.execute t).sockets.length = w.sockets.length := (World.Grows.execute u t).size
        -- taking a task moves it within the tasks so far
        have hall : b.taken ++ [t] ++ (u.execute t).loop.queue = b.taken ++ w.loop.queue := by
          rw [World.loop_execute, queue_of_next? hn, List.append_assoc]
          rfl
        obtain ⟨duties, hduties, htail⟩ := u.plans_execute t
        show Ordered (b.taken ++ [t]) (u.execute t)
        exact
          { ranged := by
              rw [hall, hsize]
              exact h.ranged
            first := by
              rw [hall]
              exact h.first
            prompt := by
              rw [hduties]
              refine .append htail fun s hs => ?_
              rcases List.mem_cons.1 hs with hs | hs
              · cases hs
              · exact hrest s hs }
    | emit s event =>
      show Ordered b.taken (World.emit _ s event)
      unfold World.emit
      split
      · exact hpopped
      next script _ =>
        refine hpopped.replan rfl rfl (.append ?_ hrest)
        intro r hr
        have hmem := List.mem_of_mem_tail hr
        simp at hmem
    | act s data a =>
      exact hpopped.perform hshape.nested.1 hshape.nested.2
        (hshape.ranged s data a List.mem_cons_self) data a
    | leave s event => exact hpopped
    | dispatch s messages =>
      cases messages with
      | nil => exact hpopped
      | cons m more => exact hjob (j := .dispatch (m :: more)) rfl (.push rfl (by simp))
    | resume s =>
      apply hjob (j := .resume) rfl
      exact World.plans_closeIfDrained s ((World.agenda_drain _ s).trans (World.agenda_release _ s))
    | begin s => exact hjob (j := .begin) rfl (World.plans_closeIfDrained s (World.agenda_drain _ s))
    | closeIfClosing s =>
      apply hjob (j := .closeIfClosing) rfl
      dsimp only [Job.duty, World.discharge]
      split
      · exact World.plans_close s rfl
      · exact .of_eq rfl

end Ordered

theorem ordered_after {h : History} (hs : Sound h.toBooks h.world) (ho : Ordered h.taken h.world)
    (m : Move) : Ordered (h.after m).taken (h.after m).world := by
  have hmoves := h.moves_after m
  generalize h.after m = k at hmoves ⊢
  cases hmoves with
  | idle => exact ho
  | step =>
    have hstep := ho.step hs.shape
    rw [← taken_issue] at hstep
    exact hstep
  | drive => exact ho.replan rfl rfl (fun s hs => by cases hs)
  | create o => exact ho.create o
  | post op hlt =>
    refine ho.post ?_ ?_
    · cases op <;> intro r hr <;> cases hr
    · cases op <;> intro r hr <;> cases hr <;> exact hlt
  | act a hw =>
    obtain ⟨hin, hlt⟩ := hs.handler hw
    exact ho.perform hin hs.shape.nested hlt _ a
  | succeed | fail => exact ho.answer _ rfl
  | fault cause => exact ho.replan rfl rfl ho.prompt
  | closeLoop => exact ho.closeLoop

/-- Tasks and duties come in order in every history. -/
theorem ordered_run (moves : List Move) :
    Ordered (History.run moves).taken (History.run moves).world := by
  induction moves using List.reverseRecOn with
  | nil => exact ⟨by simp [History.run], by simp [History.run], fun s hs => by cases hs⟩
  | append_singleton more m ih =>
    rw [History.run_concat]
    exact ordered_after (sound_run more) ih m

end PollSocket.Socket
