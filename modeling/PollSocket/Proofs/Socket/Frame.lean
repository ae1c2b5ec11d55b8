import Mathlib
import PollSocket.Proofs.Socket.History

set_option autoImplicit false

/-!
# What the parts of a step leave alone

Most parts of a step only write to the journal, change the state or the handlers of a socket, or
plan calls of handlers. `Quiet` says so: calls, loop, queues, sessions and the marks of calls in
flight stay, no socket opens, and the agenda grows by duties that are neither part of a handler nor
of a delivery (`Duty.outer`).

The agenda of a world is always `Nested`: the acts of a handler stand directly above its end, so that
a value that a handler throws drops acts of that handler and nothing else (`unwind_nested`).
-/

namespace PollSocket

/-- What the exchanges of a socket are made of. -/
def Socket.wiring (x : Socket) : String × String × SessionId := (x.url, x.protocol, x.session)

namespace Socket

variable {d : Duty} {duties rest : List Duty} {c s : Nat} {v w : World}

/-! ## Sockets after a change -/

namespace World

theorem socket_of_sockets_eq (h : v.sockets = w.sockets) (s : Nat) : v.socket s = w.socket s := by
  rw [socket, socket, h]

theorem socket_of_le (h : w.sockets.length ≤ s) : w.socket s = {} := by
  rw [socket, List.getD_eq_getElem?_getD, List.getElem?_eq_none h, Option.getD_none]

theorem socket_update (w : World) (s r : Nat) (f : Socket → Socket) :
    (w.update s f).socket r =
      if r = s ∧ s < w.sockets.length then f (w.socket s) else w.socket r := by
  simp only [socket, update, List.getD_eq_getElem?_getD]
  by_cases hr : s = r
  · subst hr
    by_cases hs : s < w.sockets.length
    · simp [hs]
    · simp [hs]
  · have hr' : ¬ r = s := fun h => hr h.symm
    simp [hr, hr']

theorem length_sockets_update (w : World) (s : Nat) (f : Socket → Socket) :
    (w.update s f).sockets.length = w.sockets.length := by
  simp [update]

/-- A field that a change of a socket keeps is kept for all sockets. -/
theorem field_update {α : Type} (w : World) (s : Nat) (f : Socket → Socket) (field : Socket → α)
    (h : ∀ x, field (f x) = field x) (r : Nat) :
    field ((w.update s f).socket r) = field (w.socket r) := by
  rw [socket_update]
  split
  next hr => rw [h, hr.1]
  next => rfl

theorem inflight_unmark (w : World) (s r : Nat) :
    ((w.update s fun x => { x with inflight := none }).socket r).inflight =
      if r = s then none else (w.socket r).inflight := by
  rw [socket_update]
  by_cases hr : r = s
  · by_cases hs : s < w.sockets.length
    · rw [if_pos ⟨hr, hs⟩, if_pos hr]
    · rw [if_neg fun h => hs h.2, if_pos hr, socket_of_le (by omega)]
  · rw [if_neg fun h => hr h.1, if_neg hr]

theorem state_unmark (w : World) (s r : Nat) :
    ((w.update s fun x => { x with inflight := none }).socket r).state = (w.socket r).state :=
  w.field_update s (fun x => { x with inflight := none }) (·.state) (fun _ => rfl) r

/-- A socket that is not in its first state exists. -/
theorem lt_of_opened (h : (w.socket s).state = .opened) : s < w.sockets.length := by
  by_contra hs
  rw [socket_of_le (Nat.le_of_not_lt hs)] at h
  cases h

theorem lt_of_inflight (h : (w.socket s).inflight = some c) : s < w.sockets.length := by
  by_contra hs
  rw [socket_of_le (Nat.le_of_not_lt hs)] at h
  cases h

end World

theorem World.step_of_cons (h : w.agenda = d :: rest) :
    w.step = ({ w with agenda := rest } : World).discharge d := by
  simp only [World.step, h]

/-- Calls stay as they were issued. -/
def World.Keeps (w v : World) : Prop :=
  ∀ (c : Nat) (x : Call), w.calls[c]? = some x →
    ∃ y, v.calls[c]? = some y ∧ y.owner = x.owner ∧ y.exchange = x.exchange ∧ y.batch = x.batch

theorem World.Keeps.of_eq (h : v.calls = w.calls) : w.Keeps v :=
  fun _ x hx => ⟨x, by rw [h, hx], rfl, rfl, rfl⟩

theorem World.Keeps.trans {u : World} (h : u.Keeps v) (k : v.Keeps w) : u.Keeps w := by
  intro c x hx
  obtain ⟨y, hy, howner, hexchange, hbatch⟩ := h c x hx
  obtain ⟨z, hz, howner', hexchange', hbatch'⟩ := k c y hy
  exact ⟨z, hz, howner'.trans howner, hexchange'.trans hexchange, hbatch'.trans hbatch⟩

theorem World.Keeps.of_append {x : Call} (h : v.calls = w.calls ++ [x]) : w.Keeps v := by
  intro c y hy
  refine ⟨y, ?_, rfl, rfl, rfl⟩
  rw [h, List.getElem?_append_left (List.getElem?_eq_some_iff.1 hy).1, hy]

/-- A call after another was issued is one from before or the new one. -/
theorem World.call_of_append {x : Call} (h : v.calls = w.calls ++ [x])
    {y : Call} (hy : v.calls[c]? = some y) :
    w.calls[c]? = some y ∨ c = w.calls.length ∧ y = x := by
  rw [h] at hy
  rcases Nat.lt_trichotomy c w.calls.length with hlt | heq | hgt
  · rw [List.getElem?_append_left hlt] at hy
    exact Or.inl hy
  · rw [heq, List.getElem?_concat_length, Option.some.injEq] at hy
    exact Or.inr ⟨heq, hy.symm⟩
  · rw [List.getElem?_eq_none (by simp; omega)] at hy
    cases hy

theorem World.Keeps.of_modify {f : Call → Call} (h : v.calls = w.calls.modify c f)
    (howner : ∀ x, (f x).owner = x.owner) (hexchange : ∀ x, (f x).exchange = x.exchange)
    (hbatch : ∀ x, (f x).batch = x.batch) : w.Keeps v := by
  intro d x hx
  refine ⟨if c = d then f x else x, by rw [h, List.getElem?_modify, hx]; rfl, ?_⟩
  split
  · exact ⟨howner x, hexchange x, hbatch x⟩
  · exact ⟨rfl, rfl, rfl⟩

/-- If no call is added, every call is one that was there. -/
theorem World.Keeps.back (h : w.Keeps v) (hlength : v.calls.length = w.calls.length) {y : Call}
    (hy : v.calls[c]? = some y) :
    ∃ x, w.calls[c]? = some x ∧ y.owner = x.owner ∧ y.exchange = x.exchange ∧ y.batch = x.batch := by
  have hlt := (List.getElem?_eq_some_iff.1 hy).1
  rw [hlength] at hlt
  have hx := List.getElem?_eq_getElem hlt
  obtain ⟨z, hz, hrest⟩ := h c _ hx
  obtain rfl : z = y := Option.some.inj (hz.symm.trans hy)
  exact ⟨_, hx, hrest⟩

/-! ## Agendas -/

/-- The duty is part of a handler: one of its acts, or its end. -/
def Duty.inner : Duty → Bool
  | .act _ _ _ => true
  | .leave _ _ => true
  | _ => false

/-- The duty is an act of a handler. -/
def Duty.isAct : Duty → Bool
  | .act _ _ _ => true
  | _ => false

theorem Duty.eq_act (h : d.isAct = true) : ∃ s data a, d = .act s data a := by
  cases d with
  | act s data a => exact ⟨s, data, a, rfl⟩
  | _ => cases h

/-- The socket whose delivery of messages ends with the duty. -/
def Duty.resumes? : Duty → Option Nat
  | .resume s => some s
  | _ => none

/-- Messages for the consumer of socket `s` that are part of a duty. -/
def Duty.messages (s : Nat) : Duty → List String
  | .emit r (.message m) => if r = s then [m] else []
  | .dispatch r messages => if r = s then messages else []
  | _ => []

/-- The duty is neither part of a handler nor of a delivery. -/
def Duty.outer : Duty → Bool
  | .act _ _ _ => false
  | .leave _ _ => false
  | .emit _ (.message _) => false
  | .dispatch _ _ => false
  | .resume _ => false
  | _ => true

theorem Duty.not_inner_of_outer (h : d.outer = true) : d.inner = false := by
  cases d <;> first | rfl | cases h

theorem Duty.resumes?_of_outer (h : d.outer = true) : d.resumes? = none := by
  cases d <;> first | rfl | cases h

theorem Duty.messages_of_outer (h : d.outer = true) (s : Nat) : d.messages s = [] := by
  cases d with
  | emit r event =>
    cases event with
    | message m => cases h
    | opened | error | closed => rfl
  | dispatch r messages => cases h
  | _ => rfl

theorem Duty.resumes?_of_inner (h : d.inner = true) : d.resumes? = none := by
  cases d <;> first | rfl | cases h

theorem Duty.messages_of_inner (h : d.inner = true) (s : Nat) : d.messages s = [] := by
  cases d <;> first | rfl | cases h

/-- The first duty is part of a handler. -/
def insideHandler : List Duty → Bool
  | d :: _ => d.inner
  | [] => false

/-- Every act stands above another act or the end of its handler. -/
def Nested : List Duty → Prop
  | [] => True
  | .act _ _ _ :: rest => insideHandler rest = true ∧ Nested rest
  | _ :: rest => Nested rest

theorem Nested.tail (h : Nested (d :: rest)) : Nested rest := by
  cases d with
  | act s data a => exact h.2
  | _ => exact h

theorem Nested.append (hd : ∀ d ∈ duties, d.inner = false) (h : Nested rest) : Nested (duties ++ rest) := by
  induction duties with
  | nil => exact h
  | cons d more ih =>
    have hmore := ih fun e he => hd e (List.mem_cons_of_mem d he)
    cases d with
    | act s data a => exact absurd (hd _ List.mem_cons_self) (by simp [Duty.inner])
    | _ => exact hmore

theorem Nested.acts_append (s : Nat) (data : String) (script : Script) (hin : insideHandler rest = true)
    (h : Nested rest) : Nested (script.map (.act s data) ++ rest) := by
  induction script with
  | nil => exact h
  | cons a more ih =>
    refine ⟨?_, ih⟩
    cases more with
    | nil => exact hin
    | cons _ _ => rfl

/-- Unwinding from inside a handler drops acts of that handler, down to its end. -/
theorem unwind_nested {agenda : List Duty} (hin : insideHandler agenda = true)
    (h : Nested agenda) :
    ∃ acts s event rest, agenda = acts ++ .leave s event :: rest ∧
      (∀ d ∈ acts, d.inner = true) ∧ World.unwind agenda = some (s, event, rest) ∧
      Nested rest := by
  induction agenda with
  | nil => simp [insideHandler] at hin
  | cons d rest ih =>
    cases d with
    | leave s event => exact ⟨[], s, event, rest, rfl, by simp, rfl, h⟩
    | act s data a =>
      obtain ⟨acts, r, event, tail, hrest, hacts, hunwind, htail⟩ := ih h.1 h.2
      refine ⟨.act s data a :: acts, r, event, tail, by rw [hrest]; rfl, ?_, hunwind, htail⟩
      intro e he
      rcases List.mem_cons.1 he with rfl | he
      · rfl
      · exact hacts e he
    | _ =>
      simp [insideHandler, Duty.inner] at hin

/-- Shape of an agenda on `n` sockets. -/
structure AgendaShape (n : Nat) (agenda : List Duty) : Prop where
  nested : Nested agenda
  /-- A socket delivers one response at a time. -/
  single : (agenda.filterMap Duty.resumes?).Nodup
  /-- Handlers are those of existing sockets. -/
  ranged : ∀ s data a, Duty.act s data a ∈ agenda → s < n
  left : ∀ s event, Duty.leave s event ∈ agenda → s < n
  /-- Messages are delivered before the end of their delivery. -/
  attended : ∀ s front rest, agenda = front ++ rest → rest.flatMap (Duty.messages s) ≠ [] →
    Duty.resume s ∈ rest

theorem flatMap_messages_outer (hd : ∀ d ∈ duties, d.outer = true) (s : Nat) :
    duties.flatMap (Duty.messages s) = [] := by
  rw [List.flatMap_eq_nil_iff]
  exact fun d hmem => Duty.messages_of_outer (hd d hmem) s

namespace AgendaShape

variable {n : Nat} {agenda : List Duty}

theorem tail (h : AgendaShape n (d :: agenda)) : AgendaShape n agenda where
  nested := h.nested.tail
  single := by
    have hs := h.single
    rw [List.filterMap_cons] at hs
    split at hs
    · exact hs
    · exact hs.of_cons
  ranged s data a ha := h.ranged s data a (List.mem_cons_of_mem d ha)
  left s event he := h.left s event (List.mem_cons_of_mem d he)
  attended s front rest ha := h.attended s (d :: front) rest (by rw [ha]; rfl)

variable (h : AgendaShape n agenda)
include h

/-- Messages on the agenda are followed by the end of their delivery. -/
theorem resume_mem (hs : agenda.flatMap (Duty.messages s) ≠ []) : Duty.resume s ∈ agenda :=
  h.attended s [] agenda rfl hs

/-- Duties in front of which messages belong to deliveries that are going on. -/
theorem attended_append (hmessages : ∀ s, ∀ d ∈ duties, d.messages s ≠ [] → Duty.resume s ∈ agenda) (s : Nat)
    (front rest : List Duty) (hsplit : duties ++ agenda = front ++ rest)
    (hs : rest.flatMap (Duty.messages s) ≠ []) : Duty.resume s ∈ rest := by
  rcases List.append_eq_append_iff.1 hsplit with ⟨mid, -, hagenda⟩ | ⟨mid, hduties, hrest⟩
  · exact h.attended s mid rest hagenda hs
  · rw [hrest]
    refine List.mem_append_right _ ?_
    -- the cut is inside the new duties: the messages are in the rest of them or further down
    by_cases hmid : mid.flatMap (Duty.messages s) = []
    · rw [hrest, List.flatMap_append, hmid] at hs
      exact h.resume_mem hs
    · obtain ⟨d, hd, hne⟩ : ∃ d ∈ mid, d.messages s ≠ [] := by simpa using hmid
      exact hmessages s d (by rw [hduties]; exact List.mem_append_right _ hd) hne

omit h in
theorem drop (duties : List Duty) (h : AgendaShape n (duties ++ agenda)) : AgendaShape n agenda := by
  induction duties with
  | nil => exact h
  | cons d more ih => exact ih h.tail

theorem append (hinner : ∀ d ∈ duties, d.inner = false) (hresumes : ∀ d ∈ duties, d.resumes? = none)
    (hmessages : ∀ s, ∀ d ∈ duties, d.messages s ≠ [] → Duty.resume s ∈ agenda) :
    AgendaShape n (duties ++ agenda) where
  nested := h.nested.append hinner
  single := by
    rw [List.filterMap_append, List.filterMap_eq_nil_iff.2 hresumes]
    exact h.single
  ranged s data a ha := by
    rcases List.mem_append.1 ha with ha | ha
    · cases hinner _ ha
    · exact h.ranged s data a ha
  left s event he := by
    rcases List.mem_append.1 he with he | he
    · cases hinner _ he
    · exact h.left s event he
  attended := h.attended_append hmessages

theorem outer_append (hd : ∀ d ∈ duties, d.outer = true) : AgendaShape n (duties ++ agenda) :=
  h.append (fun d hm => Duty.not_inner_of_outer (hd d hm))
    (fun d hm => Duty.resumes?_of_outer (hd d hm))
    fun s d hm hne => absurd (Duty.messages_of_outer (hd d hm) s) hne

/-- More acts of the handler that is being executed. -/
theorem acts_append (hin : insideHandler agenda = true) (hs : s < n)
    (data : String) (script : Script) : AgendaShape n (script.map (.act s data) ++ agenda) where
  nested := h.nested.acts_append s data script hin
  single := by
    have hacts : (script.map (Duty.act s data)).filterMap Duty.resumes? = [] := by
      simp [Duty.resumes?]
    rw [List.filterMap_append, hacts]
    exact h.single
  ranged r d a ha := by
    rcases List.mem_append.1 ha with ha | ha
    · obtain ⟨b, -, hb⟩ := List.mem_map.1 ha
      cases hb
      exact hs
    · exact h.ranged r d a ha
  left r event he := by
    rcases List.mem_append.1 he with he | he
    · obtain ⟨b, -, hb⟩ := List.mem_map.1 he
      cases hb
    · exact h.left r event he
  attended := h.attended_append fun r d hm hne => by
    obtain ⟨b, -, rfl⟩ := List.mem_map.1 hm
    exact absurd rfl hne

/-- The end of a handler of an existing socket. -/
theorem leave_cons (hs : s < n) (event : Event) : AgendaShape n (.leave s event :: agenda) where
  __ := h
  ranged r d a ha := h.ranged r d a (by simpa using ha)
  left r e he := by
    rcases List.mem_cons.1 he with he | he
    · cases he
      exact hs
    · exact h.left r e he
  attended r front rest hsplit hr := by
    have hnone : ∀ s', ∀ d ∈ [Duty.leave s event], d.messages s' ≠ [] → Duty.resume s' ∈ agenda := by
      simp [Duty.messages]
    exact h.attended_append hnone r front rest hsplit hr

/-- The end of a delivery, on a socket that delivers nothing else. -/
theorem resume_cons (hs : Duty.resume s ∉ agenda) : AgendaShape n (.resume s :: agenda) where
  nested := h.nested
  single := by
    refine List.nodup_cons.2 ⟨?_, h.single⟩
    rw [List.mem_filterMap]
    rintro ⟨d, hd, hs'⟩
    cases d with
    | resume r =>
      cases hs'
      exact hs hd
    | _ => cases hs'
  ranged r d a ha := h.ranged r d a (by simpa using ha)
  left r e he := h.left r e (by simpa using he)
  attended r front rest hsplit hr := by
    have hnone : ∀ s', ∀ d ∈ [Duty.resume s], d.messages s' ≠ [] → Duty.resume s' ∈ agenda := by
      simp [Duty.messages]
    exact h.attended_append hnone r front rest hsplit hr

omit h in
/-- Below the end of a delivery the same socket has no other. -/
theorem not_mem_of_resume_cons (h : AgendaShape n (.resume s :: agenda)) : Duty.resume s ∉ agenda := by
  intro hs
  have hnodup := h.single
  exact (List.nodup_cons.1 hnodup).1 (List.mem_filterMap.2 ⟨.resume s, hs, rfl⟩)

theorem mono {m : Nat} (hm : n ≤ m) : AgendaShape m agenda where
  __ := h
  ranged s data a ha := Nat.lt_of_lt_of_le (h.ranged s data a ha) hm
  left s event he := Nat.lt_of_lt_of_le (h.left s event he) hm

end AgendaShape

/-! ## Quiet changes -/

/-- A change that issues and completes nothing, queues nothing and opens no socket. -/
structure Quiet (w v : World) : Prop where
  calls : v.calls = w.calls
  wiring : ∀ s, (v.socket s).wiring = (w.socket s).wiring
  loop : v.loop = w.loop
  size : v.sockets.length = w.sockets.length
  inflight : ∀ s, (v.socket s).inflight = (w.socket s).inflight
  pending : ∀ s, (v.socket s).pending = (w.socket s).pending
  requeue : ∀ s, (v.socket s).requeue = (w.socket s).requeue
  opened : ∀ s, (v.socket s).state = .opened → (w.socket s).state = .opened
  agenda : ∃ duties, (∀ d ∈ duties, d.outer = true) ∧ v.agenda = duties ++ w.agenda

namespace Quiet

theorem refl (w : World) : Quiet w w :=
  ⟨rfl, fun _ => rfl, rfl, rfl, fun _ => rfl, fun _ => rfl, fun _ => rfl, fun _ h => h, [], by simp,
    rfl⟩

theorem trans {u : World} (h : Quiet u v) (k : Quiet v w) : Quiet u w where
  calls := k.calls.trans h.calls
  wiring s := (k.wiring s).trans (h.wiring s)
  loop := k.loop.trans h.loop
  size := k.size.trans h.size
  inflight s := (k.inflight s).trans (h.inflight s)
  pending s := (k.pending s).trans (h.pending s)
  requeue s := (k.requeue s).trans (h.requeue s)
  opened s hs := h.opened s (k.opened s hs)
  agenda := by
    obtain ⟨ds, hds, hv⟩ := h.agenda
    obtain ⟨es, hes, hw⟩ := k.agenda
    refine ⟨es ++ ds, ?_, by rw [hw, hv, List.append_assoc]⟩
    intro d hd
    rcases List.mem_append.1 hd with hd | hd
    · exact hes d hd
    · exact hds d hd

section

variable (w : World)

theorem note (n : Note) : Quiet w (w.note n) :=
  ⟨rfl, fun _ => rfl, rfl, rfl, fun _ => rfl, fun _ => rfl, fun _ => rfl, fun _ h => h, [], by simp,
    rfl⟩

theorem log (s : Nat) (level : Log.Level) (message : String)
    (attrs : List (String × Log.Value)) : Quiet w (w.log s level message attrs) :=
  note w _

theorem record (fault : Failure) (ran : Nat) : Quiet w { w with fault, ran } :=
  ⟨rfl, fun _ => rfl, rfl, rfl, fun _ => rfl, fun _ => rfl, fun _ => rfl, fun _ h => h, [], by simp,
    rfl⟩

theorem push (h : ∀ d ∈ duties, d.outer = true) : Quiet w (w.push duties) :=
  ⟨rfl, fun _ => rfl, rfl, rfl, fun _ => rfl, fun _ => rfl, fun _ => rfl, fun _ h => h, duties, h,
    rfl⟩

theorem update (s : Nat) (f : Socket → Socket)
    (hinflight : ∀ x, (f x).inflight = x.inflight) (hpending : ∀ x, (f x).pending = x.pending)
    (hrequeue : ∀ x, (f x).requeue = x.requeue) (hwiring : ∀ x, (f x).wiring = x.wiring)
    (hopened : ∀ x, (f x).state = .opened → x.state = .opened) : Quiet w (w.update s f) where
  calls := rfl
  wiring := w.field_update s f Socket.wiring hwiring
  loop := rfl
  size := w.length_sockets_update s f
  inflight := w.field_update s f (·.inflight) hinflight
  pending := w.field_update s f (·.pending) hpending
  requeue := w.field_update s f (·.requeue) hrequeue
  opened r hr := by
    rw [World.socket_update] at hr
    split at hr
    next h =>
      rw [h.1]
      exact hopened _ hr
    next => exact hr
  agenda := ⟨[], by simp, rfl⟩

theorem close (s : Nat) : Quiet w (w.close s) := by
  unfold World.close
  dsimp only
  split
  · exact refl w
  · have hclosed : Quiet w (w.update s fun x => { x with state := .closed }) :=
      update w s _ (fun _ => rfl) (fun _ => rfl) (fun _ => rfl) (fun _ => rfl)
        fun x hx => by cases hx
    refine trans (trans hclosed (log _ _ _ _ _)) (push _ ?_)
    simp [Duty.outer]

theorem closeIfDrained (s : Nat) : Quiet w (w.closeIfDrained s) := by
  unfold World.closeIfDrained
  dsimp only
  split
  · exact close w s
  · exact refl w

end

/-- A quiet change keeps the shape of the agenda. -/
theorem shape (h : Quiet w v) (hw : AgendaShape w.sockets.length w.agenda) :
    AgendaShape v.sockets.length v.agenda := by
  obtain ⟨duties, hd, hv⟩ := h.agenda
  rw [hv, h.size]
  exact hw.outer_append hd

/-- A quiet change neither begins nor ends a delivery. -/
theorem resume_mem (h : Quiet w v) (s : Nat) : Duty.resume s ∈ v.agenda ↔ Duty.resume s ∈ w.agenda := by
  obtain ⟨duties, hd, hv⟩ := h.agenda
  rw [hv, List.mem_append, or_iff_right]
  intro hs
  exact absurd (hd _ hs) (by simp [Duty.outer])

/-- A quiet change brings no messages. -/
theorem messages (h : Quiet w v) (s : Nat) :
    v.agenda.flatMap (Duty.messages s) = w.agenda.flatMap (Duty.messages s) := by
  obtain ⟨duties, hd, hv⟩ := h.agenda
  rw [hv, List.flatMap_append, flatMap_messages_outer hd, List.nil_append]

end Quiet

/-- The socket that options ask for. -/
def Options.socket (o : Options) : Socket :=
  { url := httpUrl o.address
    protocol := match o.protocol with
      | none => defaultProtocol
      | some p => if p.isEmpty then defaultProtocol else p
    requeue := o.requeue
    ownLog := o.ownLog
    handlers := o.handlers }

/-- The world with one more socket. -/
def World.addSocket (w : World) (x : Socket) : World := { w with sockets := w.sockets ++ [x] }

/-- A new socket posts its handshake; a loop that is closed refuses it, which is recorded. -/
theorem World.create_eq (w : World) (o : Options) :
    w.create o =
      if ((w.addSocket o.socket).post (.establish w.sockets.length)).2 then
        ((w.addSocket o.socket).post (.establish w.sockets.length)).1
      else ((w.addSocket o.socket).post (.establish w.sockets.length)).1.log w.sockets.length .warn
        "event loop closed before handshake" [] := rfl

/-- A socket is created and its handshake is posted; the rest is quiet. -/
theorem Quiet.create (w : World) (o : Options) :
    Quiet ((w.addSocket o.socket).post (.establish w.sockets.length)).1 (w.create o) := by
  rw [World.create_eq]
  split
  · exact refl _
  · exact log _ _ _ _ _

theorem World.socket_addSocket (w : World) (x : Socket) (s : Nat) :
    (w.addSocket x).socket s = if s = w.sockets.length then x else w.socket s := by
  unfold World.addSocket World.socket
  rcases Nat.lt_trichotomy s w.sockets.length with hs | hs | hs
  · rw [List.getD_append _ _ _ _ hs, if_neg hs.ne]
  · rw [List.getD_append_right _ _ _ _ hs.ge, if_pos hs, hs, Nat.sub_self]
    rfl
  · rw [if_neg hs.ne', List.getD_eq_default _ _ (by simp; omega), List.getD_eq_default _ _ hs.le]

/-! ## Moves -/

namespace History

/-- What a move makes of a history. It may have nothing to do. -/
inductive Moves (h : History) : Move → History → Prop
  | step : Moves h .step h.step
  | drive (hempty : h.world.agenda = []) :
    Moves h .drive { h with world := { h.world with agenda := [.run 0 none] } }
  | create (o : Options) : Moves h (.create o) { h with world := h.world.create o }
  | post {s : Nat} (op : Operation) (hs : s < h.world.sockets.length) :
    Moves h (.post s op) { h with world := (h.world.post (op.task s)).1 }
  | act {s : Nat} {data : String} (a : Act) (hhandler : h.world.handler? = some (s, data)) :
    Moves h (.act a) { h with world := h.world.perform s data a }
  | succeed {c : Nat} (body : List UInt8) (hc : h.world.awaits c = true) :
    Moves h (.succeed c body) { h with world := (h.world.answer c (.succeed c body)).1 }
  | fail {c : Nat} (hc : h.world.awaits c = true) :
    Moves h (.fail c) { h with world := (h.world.answer c (.fail c)).1 }
  | fault (cause : Failure) : Moves h (.fault cause) { h with world := { h.world with fault := cause } }
  | closeLoop : Moves h .closeLoop { h with world := { h.world with loop := h.world.loop.close } }
  | idle (m : Move) : Moves h m h

theorem moves_after (h : History) (m : Move) : h.Moves m (h.after m) := by
  cases m with
  | step | create | fault | closeLoop => constructor
  | drive =>
    unfold after
    dsimp only
    split
    next hempty => exact .drive (List.isEmpty_iff.1 hempty)
    next => exact .idle _
  | post | act | succeed | fail =>
    unfold after
    dsimp only
    split
    · constructor
      assumption
    · exact .idle _

end History

end Socket

end PollSocket
