import PollSocket.Proofs.Server.Chronicle

set_option autoImplicit false

/-!
# Handlers that do not throw

If no handler is registered whose script throws, and no handler throws by itself, then nobody ever throws:
what threads have left to do comes from the scripts of handlers (`World.Calm`, `Chronicle.calm_after`).
-/

namespace PollSocket.Server

mutual

/-- The act throws nothing, and registers no handler that does. -/
def Act.calm : Act → Bool
  | .handle _ script => calmScript script
  | .whenData _ script => calmScript script
  | .throw _ => false
  | _ => true

/-- No act of the script throws. -/
def calmScript : List Act → Bool
  | [] => true
  | a :: more => a.calm && calmScript more

end

theorem calm_of_mem {script : List Act} (h : calmScript script = true) {a : Act} (ha : a ∈ script) :
    a.calm = true := by
  induction script with
  | nil => cases ha
  | cons b more ih =>
    rw [calmScript, Bool.and_eq_true] at h
    rcases List.mem_cons.1 ha with rfl | ha
    · exact h.1
    · exact ih h.2 ha

def Reaction.calm : Reaction → Bool
  | .script _ acts => calmScript acts
  | _ => true

def Duty.calm : Duty → Bool
  | .react _ r _ _ => r.calm
  | .act _ _ _ a => a.calm
  | _ => true

/-- The turn brings no act that throws. -/
def Turn.calm : Turn → Bool
  | .move (.act _ a) => a.calm
  | .move (.register _ r) => r.calm
  | _ => true

namespace World

variable {d : Duty} {x : Thread}

/-- Nobody is going to throw. -/
structure Calm (w : World) : Prop where
  handlers : ∀ h ∈ w.handlers, h.reaction.calm = true
  duties : ∀ x ∈ w.threads, ∀ d ∈ x.agenda, d.calm = true

namespace Calm

variable {w v : World}

variable (h : w.Calm)
include h

theorem of_eq (hthreads : v.threads = w.threads) (hhandlers : v.handlers = w.handlers) : v.Calm :=
  ⟨by rw [hhandlers]; exact h.handlers, by rw [hthreads]; exact h.duties⟩

theorem updateThread (t : Nat) {f : Thread → Thread}
    (hf : ∀ x : Thread, ∀ d ∈ (f x).agenda, d ∈ x.agenda ∨ d.calm = true) : (w.updateThread t f).Calm := by
  refine ⟨h.handlers, fun x hx d hd => ?_⟩
  obtain ⟨u, hu⟩ := List.mem_iff_getElem?.1 hx
  rw [threads_updateThread] at hu
  split at hu
  · obtain ⟨y, hy, rfl⟩ := Option.map_eq_some_iff.1 hu
    rcases hf y d hd with hd | hd
    · exact h.duties y (List.mem_of_getElem? hy) d hd
    · exact hd
  · exact h.duties x (List.mem_of_getElem? hu) d hd

theorem push (t : Nat) {duties : List Duty} (hduties : ∀ d ∈ duties, d.calm = true) :
    (w.push t duties).Calm := by
  refine h.updateThread t fun x d hd => ?_
  rcases List.mem_append.1 hd with hd | hd
  · exact Or.inr (hduties d hd)
  · exact Or.inl hd

theorem register {k : Handler} (hk : k.reaction.calm = true) (hthreads : v.threads = w.threads)
    (hhandlers : v.handlers = w.handlers ++ [k]) : v.Calm := by
  refine ⟨?_, hthreads ▸ h.duties⟩
  rw [hhandlers]
  exact List.forall_mem_append.2 ⟨h.handlers, List.forall_mem_singleton.2 hk⟩

/-- The thread gets an answer, an outcome or the like. -/
theorem keep (t : Nat) {f : Thread → Thread} (hf : ∀ x, (f x).agenda = x.agenda) :
    (w.updateThread t f).Calm := by
  refine h.updateThread t fun x d hd => ?_
  rw [hf] at hd
  exact Or.inl hd

omit h in
theorem acts {script : List Act} (hscript : calmScript script = true) (number c : Nat) (data : String) :
    ∀ d ∈ script.map (Duty.act number c data), d.calm = true := by
  intro d hd
  obtain ⟨a, ha, rfl⟩ := List.mem_map.1 hd
  exact calm_of_mem hscript ha

theorem sendTo (c : Nat) (text : String) : (w.sendTo c text).1.Calm := by
  refine h.of_eq (w.threads_sendTo c text) ?_
  unfold World.sendTo
  split
  · rfl
  · split <;> rfl

theorem written {message : Option (Nat × String)} {call : Option Note} (hv : w.Written message call v) :
    v.Calm := by
  induction hv with
  | refl => exact h
  | sent c text => exact h.sendTo c text
  | called => exact h.of_eq rfl rfl
  | note _ _ ih => exact ih.of_eq rfl rfl

/-- What a duty plans comes from handlers and scripts that do not throw. -/
theorem plan (hd : d.calm = true) {pushed : List Duty} (hplan : d.Plan w x pushed) :
    ∀ e ∈ pushed, e.calm = true := by
  cases hplan with
  | reacts event c data =>
    intro e he
    obtain ⟨k, hk, rfl⟩ := List.mem_map.1 he
    exact h.handlers k (List.mem_of_mem_filter hk)
  | script event number script c data => exact acts hd number c data
  | branches number c data expected script =>
    have hscript : calmScript script = true := by simpa [Duty.calm, Act.calm] using hd
    exact acts hscript number c data
  | _ => simp [Duty.calm]

theorem did {t : Nat} (hd : d.calm = true) (hdid : w.Did t x d v) : v.Calm := by
  cases hdid with
  | passes _ hv => exact h.written hv
  | plans hplan hv => exact (h.written hv).push t (h.plan hd hplan)
  | concludes _ hv => exact (h.written hv).keep t fun _ => rfl
  | refuses | greets | replies =>
    refine Calm.keep ?_ t fun _ => rfl
    exact h.of_eq rfl rfl
  | opens | closes =>
    refine Calm.push ?_ t (by simp [Duty.calm])
    exact h.of_eq rfl rfl
  | locks | unlocks => exact h.of_eq rfl rfl
  | @takes _ _ _ _ r =>
    refine Calm.push ?_ t ?_
    · exact h.of_eq rfl rfl
    · intro e he
      rw [List.mem_singleton.1 he]
      cases r.2 <;> rfl
  | registers number c data event script =>
    refine h.register ?_ rfl rfl
    simpa [Duty.calm, Act.calm, Reaction.calm] using hd
  | throws => cases hd

theorem stepThread {t : Nat} {rest : List Duty} (hx : w.Next t x d rest) : (w.stepThread t).Calm := by
  have hagenda_calm : ∀ e ∈ d :: rest, e.calm = true := by
    rw [← hx.agenda]
    exact h.duties x (List.mem_of_getElem? hx.thread)
  have hpop : (w.pop t rest).Calm := by
    refine h.updateThread t fun y e he => ?_
    exact Or.inr (hagenda_calm e (List.mem_cons_of_mem _ he))
  rw [hx.step_eq]
  exact hpop.did (hagenda_calm d List.mem_cons_self) ((w.pop t rest).did_discharge t x d)

theorem spawn (hd : d.calm = true) (hthreads : v.threads = w.threads ++ [{ agenda := [d] }])
    (hhandlers : v.handlers = w.handlers) :
    v.Calm := by
  refine ⟨by rw [hhandlers]; exact h.handlers, fun x hx e he => ?_⟩
  rw [hthreads, List.mem_append] at hx
  rcases hx with hx | hx
  · exact h.duties x hx e he
  · rw [List.mem_singleton.1 hx, List.mem_singleton] at he
    rwa [he]

end Calm

end World

namespace Chronicle

/-- If no turn brings an act that throws, nobody is ever going to throw. -/
theorem calm_after {s : Chronicle} (h : s.world.Calm) {turn : Turn} (hturn : turn.calm = true) :
    (s.after turn).world.Calm := by
  cases turn with
  | closes t c =>
    rw [after]
    split
    · exact h.push t (by simp [Duty.calm])
    · exact h
  | move m =>
    cases m with
    | step t =>
      rcases world_after_move s (.step t) with hidle | hmoved
      · rw [hidle]
        exact h
      · rw [hmoved]
        by_cases hready : s.world.ready t = true
        · obtain ⟨x, d, rest, hx⟩ := World.agenda_of_ready hready
          rw [History.world_after_step hready]
          exact h.stepThread hx
        · rw [History.after, if_neg hready]
          exact h
    | act t a =>
      show (s.toHistory.after (.act t a)).world.Calm
      rw [History.after]
      split
      · exact h.push t (by simpa [Duty.calm, Turn.calm] using hturn)
      · exact h
    | cancel t | sever t | prefer t => exact h.keep t fun _ => rfl
    | clock => exact h.of_eq rfl rfl
    | register event r => exact h.register (k := ⟨event, r⟩) hturn rfl rfl
    | _ => exact h.spawn rfl rfl rfl

theorem calm_run (settings : Settings) (limiter : Option Limiter) (ids : Ids) {turns : List Turn}
    (h : ∀ turn ∈ turns, turn.calm = true) : (run settings limiter ids turns).world.Calm := by
  induction turns using List.reverseRecOn with
  | nil => exact ⟨by rintro k ⟨⟩, by rintro x ⟨⟩⟩
  | append_singleton front turn ih =>
    rw [run_concat]
    apply calm_after
    · exact ih fun turn' hturn' => h turn' (List.mem_append_left _ hturn')
    · exact h turn (by simp)

end Chronicle

end PollSocket.Server
