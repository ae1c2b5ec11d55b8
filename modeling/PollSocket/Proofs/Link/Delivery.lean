import PollSocket.Proofs.Link.Linked
import PollSocket.Proofs.Server.Entries
import PollSocket.Proofs.Socket.Guarantees

set_option autoImplicit false

/-!
# Delivery over a network that loses

A socket that queues again after a failure delivers every message at least once and in order, whatever
the network loses or delays. `Heard` is the invariant: the positions that the handlers of the server
were told are an initial segment, and first occurrences come in order. What carries it is that a call
carries consecutive positions behind acknowledged ones, and that what is acknowledged was heard. So a
request that comes late repeats positions or goes on where the others have ended, and leaves no gap.
-/

namespace PollSocket.Link

variable {k p t : Nat} {h : Socket.History} {o : Socket.Options} {l : State} {data : String}

/-! ## Texts of positions -/

/-- Messages that were sent stay where they are. -/
theorem sent_of_extends {k : Socket.History} (e : h.Extends k) (s : Nat) : h.sent s <+: k.sent s := by
  obtain ⟨more, hmore⟩ := e.taken
  rw [Socket.Books.sent, Socket.Books.sent, ← hmore, List.filterMap_append]
  exact List.prefix_append _ _

theorem text_of_extends {k : Socket.History} (e : h.Extends k) {s : Nat} (hp : p < (h.sent s).length) :
    k.text s p = h.text s p := by
  obtain ⟨more, hmore⟩ := sent_of_extends e s
  rw [Socket.Books.text, Socket.Books.text, ← hmore, List.getD_append _ _ _ _ hp]

/-! ## The invariant -/

/-- What holds of the positions that handlers of the server were told. -/
structure Heard (l : State) : Prop where
  /-- They are an initial segment, and first occurrences come in order. -/
  initial : ∃ n, l.heard.eraseDups = List.range n
  /-- What the thread of an errand has told is among them. -/
  covered : ∀ k t, (k, t) ∈ l.errands →
    ∀ p ∈ (l.client.carried k).take (l.server.toldBy t).length, p ∈ l.heard
  bounded : ∀ p ∈ l.heard, p < (l.client.sent 0).length
  texts : l.seen.map (·.2) = l.heard.map (l.client.text 0)

namespace State

/-- The next position of a thread that serves a call. -/
theorem position?_of_mem (h : Linked o l) (hkt : (k, t) ∈ l.errands) :
    l.position? t = (l.client.carried k)[(l.server.toldBy t).length]? := by
  have hfind : l.errands.find? (fun e => e.2 == t) = some (k, t) := by
    cases hfound : l.errands.find? fun e => e.2 == t with
    | none =>
      have hnone := List.find?_eq_none.1 hfound (k, t) hkt
      simp at hnone
    | some e =>
      have hsame : e.2 = t := by simpa using List.find?_some hfound
      rw [List.inj_on_of_nodup_map h.threads (List.mem_of_find?_eq_some hfound) hkt hsame]
  rw [position?, hfind]

theorem position?_of_not_mem (ht : ∀ k, (k, t) ∉ l.errands) : l.position? t = none := by
  have hfind : l.errands.find? (fun e => e.2 == t) = none := by
    rw [List.find?_eq_none]
    rintro ⟨k, u⟩ hmem
    simp only [beq_iff_eq]
    rintro rfl
    exact ht k hmem
  rw [position?, hfind]

theorem serves_iff : l.serves t = true ↔ ∃ k, (k, t) ∈ l.errands := by
  rw [serves, List.any_eq_true]
  constructor
  · rintro ⟨⟨k, u⟩, hmem, hu⟩
    obtain rfl : u = t := by simpa using hu
    exact ⟨k, hmem⟩
  · rintro ⟨k, hmem⟩
    exact ⟨_, hmem, beq_self_eq_true t⟩

/-- Entries of threads that serve the socket. -/
def ours {α : Type} (l : State) (entries : List (Nat × α)) : List α :=
  entries.filterMap fun e => if l.serves e.1 then some e.2 else none

theorem ours_concat {α : Type} (l : State) (entries : List (Nat × α)) (t : Nat) (a : α) :
    l.ours (entries ++ [(t, a)]) = l.ours entries ++ if l.serves t then [a] else [] := by
  cases h : l.serves t <;> simp [ours, h]

/-- A thread that has entered nothing begins to serve a call. -/
theorem ours_request {α : Type} (l : State) (s : Server.History) (k : Nat) {entries : List (Nat × α)}
    (h : Server.entriesOf t entries = []) :
    ({ l with server := s, errands := l.errands ++ [(k, t)] } : State).ours entries =
      l.ours entries := by
  refine List.filterMap_congr fun e he => ?_
  have hne : ¬ t = e.1 := by
    rintro rfl
    rw [Server.entriesOf, List.filterMap_eq_nil_iff] at h
    simpa using h e he
  have hsame : (l.errands ++ [(k, t)]).any (fun d => d.2 == e.1) = l.serves e.1 := by
    simp [serves, hne]
  exact if_congr (by rw [← hsame]; rfl) rfl rfl

end State

/-! ## Moves of the server -/

/-- What a move of the server adds to what was heard: nothing, or the thread of an errand tells of the
next message of its call. -/
inductive State.Hears (l : State) (m : Server.Move) : Prop
  | nothing (htold : ∀ k u, (k, u) ∈ l.errands → (l.server.after m).toldBy u = l.server.toldBy u)
    (hheard : (l.afterServer m).heard = l.heard) (hseen : (l.afterServer m).seen = l.seen)
  | tells {k t c p : Nat} {data : String} {y : Server.Thread} {rest : List Server.Duty} (hm : m = .step t)
    (hkt : (k, t) ∈ l.errands) (hy : l.server.world.Next t y (.trigger "message" c data) rest)
    (htold : ∀ u, (l.server.after m).toldBy u =
      l.server.toldBy u ++ Server.entriesOf u [(t, c, data)])
    (hp : (l.client.carried k)[(l.server.toldBy t).length]? = some p) (htext : l.client.text 0 p = data)
    (hheard : (l.afterServer m).heard = l.heard ++ [p])
    (hseen : (l.afterServer m).seen = l.seen ++ [(c, data)])

/-- The message that the thread of an errand tells next has the next position of the call. -/
theorem Linked.next (h : Linked o l) {rest : List String} {x : Socket.Call}
    (hx : l.client.world.calls[k]? = some x)
    (hbatch : x.batch.getD [] = (l.server.toldBy t).map (·.2) ++ data :: rest) :
    ∃ p, (l.client.carried k)[(l.server.toldBy t).length]? = some p ∧ l.client.text 0 p = data := by
  rw [h.sound.ledger.batches k x hx, h.owner hx, List.map_eq_append_iff] at hbatch
  obtain ⟨front, back, hcarried, hfront, hback⟩ := hbatch
  obtain ⟨p, more, rfl, hp, -⟩ := List.map_eq_cons_iff.1 hback
  have hlength : front.length = (l.server.toldBy t).length := by
    have := congrArg List.length hfront
    simpa using this
  exact ⟨p, by simp [hcarried, ← hlength], hp⟩

theorem Linked.hears (h : Linked o l) (m : Server.Move) : l.Hears m := by
  have hheard : ∀ {news : List (Nat × Nat × String)},
      (l.server.after m).told = l.server.told ++ news →
      (l.afterServer m).heard = l.heard ++ news.flatMap fun e => (l.position? e.1).toList := by
    intro news hnews
    show l.heard ++ ((l.server.after m).told.drop l.server.told.length).flatMap _ = _
    rw [hnews, List.drop_left]
  have hseen : (l.afterServer m).seen = l.ours (l.server.after m).told := rfl
  rcases l.server.told_after m with hsame | ⟨t, c, data, y, rest, hm, hy, htold⟩
  · refine .nothing (fun k u _ => ?_) ?_ ?_
    · rw [Server.Books.toldBy, Server.Books.toldBy, hsame]
    · rw [hheard (hsame.trans (List.append_nil _).symm), List.flatMap_nil, List.append_nil]
    · rw [hseen, hsame]
      rfl
  have htoldBy : ∀ u, (l.server.after m).toldBy u =
      l.server.toldBy u ++ Server.entriesOf u [(t, c, data)] := by
    intro u
    rw [Server.Books.toldBy, htold, Server.entriesOf_append]
    rfl
  replace hheard := hheard htold
  rw [List.flatMap_singleton] at hheard
  rw [htold, State.ours_concat] at hseen
  by_cases hserves : ∃ k, (k, t) ∈ l.errands
  · rw [if_pos (State.serves_iff.2 hserves)] at hseen
    obtain ⟨k, hkt⟩ := hserves
    obtain ⟨x, more, hx, hbatch, -, -⟩ := (linked_after h (.server m)).told hkt
    change x.batch.getD [] = ((l.server.after m).toldBy t).map (·.2) ++ more at hbatch
    have hnext : x.batch.getD [] = (l.server.toldBy t).map (·.2) ++ data :: more := by
      simpa [htoldBy, Server.entriesOf] using hbatch
    obtain ⟨p, hp, htext⟩ := h.next hx hnext
    rw [State.position?_of_mem h hkt, hp] at hheard
    exact .tells hm hkt hy htoldBy hp htext hheard hseen
  · -- the thread serves somebody else
    have hserved : l.serves t = false :=
      Bool.eq_false_iff.2 fun hs => hserves (State.serves_iff.1 hs)
    have hnone := State.position?_of_not_mem fun k hkt => hserves ⟨k, hkt⟩
    refine .nothing (fun k u hku => ?_) (by simpa [hnone] using hheard) ?_
    · have hu : t ≠ u := by
        rintro rfl
        exact hserves ⟨k, hku⟩
      simp [htoldBy, Server.entriesOf, hu]
    · rw [hseen, hserved]
      exact List.append_nil _

/-- The thread of a call whose success has been reported has come to its end with success. -/
theorem Linked.succeeded (h : Linked o l) (hdone : Socket.succeeded l.client.taken k = true) :
    ∃ body t, (k, t) ∈ l.errands ∧ Fulfilled l.server.world t body := by
  obtain ⟨task, htask, hsucceeds⟩ := List.any_eq_true.1 hdone
  obtain ⟨body, rfl⟩ : ∃ body, task = .succeed k body := by
    cases task with
    | succeed c body => exact ⟨body, by rw [beq_iff_eq.1 hsucceeds]⟩
    | _ => cases hsucceeds
  have hreport : Socket.Task.succeed k body ∈ l.client.reports :=
    List.mem_filter.2 ⟨List.mem_append_left _ htask, rfl⟩
  exact ⟨body, h.reported k body hreport⟩

/-- Calls carry positions of messages that were sent. -/
theorem Linked.known (h : Linked o l) (hkt : (k, t) ∈ l.errands) (hp : p ∈ l.client.carried k) :
    p < (l.client.sent 0).length := by
  obtain ⟨x, -, hx, -⟩ := h.served k t hkt
  have hlt := h.sound.ledger.known k x hx p hp
  rwa [h.owner hx] at hlt

/-- A thread has told one message more of its own errand, and the others are where they were. -/
theorem Linked.take_toldBy (h : Linked o l) {c : Nat} {m : Server.Move} (hkt : (k, t) ∈ l.errands)
    (htold : ∀ u, (l.server.after m).toldBy u = l.server.toldBy u ++ Server.entriesOf u [(t, c, data)])
    (hp : (l.client.carried k)[(l.server.toldBy t).length]? = some p) {j u : Nat} (hju : (j, u) ∈ l.errands) :
    (l.client.carried j).take ((l.server.after m).toldBy u).length =
      (l.client.carried j).take (l.server.toldBy u).length ++ if u = t then [p] else [] := by
  by_cases hu : u = t
  · -- a thread serves one errand, so the call is the one that tells
    subst hu
    obtain rfl : j = k := congrArg Prod.fst (List.inj_on_of_nodup_map h.threads hju hkt rfl)
    have hlength : ((l.server.after m).toldBy u).length = (l.server.toldBy u).length + 1 := by
      simp [htold, Server.entriesOf]
    rw [hlength, List.take_add_one, hp, if_pos rfl]
    rfl
  · have hother : Server.entriesOf u [(t, c, data)] = [] := by simp [Server.entriesOf, Ne.symm hu]
    rw [htold, hother, List.append_nil, if_neg hu, List.append_nil]

/-- Positions are heard up to the next one, which may be heard again. -/
theorem eraseDups_concat {heard : List Nat} {n : Nat} (h : heard.eraseDups = List.range n)
    (hp : ∀ q < p, q ∈ heard) : ∃ n, (heard ++ [p]).eraseDups = List.range n := by
  have hmem : ∀ q, q ∈ heard ↔ q < n := by
    intro q
    rw [← List.mem_eraseDups, h, List.mem_range]
  rw [List.eraseDups_append, h]
  by_cases hpn : p < n
  · refine ⟨n, ?_⟩
    have hremoved : [p].removeAll heard = [] := by simp [List.removeAll, (hmem p).2 hpn]
    rw [hremoved, List.eraseDups_nil, List.append_nil]
  · have hnp : n = p := by
      by_contra hne
      have hlt : n < p := by omega
      exact absurd ((hmem n).1 (hp n hlt)) (Nat.lt_irrefl n)
    have hremoved : [p].removeAll heard = [p] := by
      have hnot : p ∉ heard := fun hin => hpn ((hmem p).1 hin)
      simp [List.removeAll, hnot]
    refine ⟨n + 1, ?_⟩
    rw [hremoved, List.range_succ, hnp]
    rfl

namespace Heard

variable (hl : Linked o l)
include hl

/-- What is acknowledged was heard: the thread that has answered has told all of its batch. -/
theorem acked (h : Heard l) (hp : p ∈ l.client.acked l.client.world 0) : p ∈ l.heard := by
  obtain ⟨k, x, -, -, hdone, hp⟩ := Socket.Books.mem_acked.1 hp
  obtain ⟨body, t, hkt, hfulfilled⟩ := hl.succeeded hdone
  obtain ⟨x', rest, hx', hbatch, hall, -⟩ := hl.told hkt
  have hlength : (l.client.carried k).length ≤ (l.server.toldBy t).length := by
    rw [hl.sound.ledger.batches k x' hx', hall body hfulfilled, List.append_nil] at hbatch
    have := congrArg List.length hbatch
    simp only [List.length_map] at this
    exact this.le
  refine h.covered k t hkt p ?_
  rwa [List.take_of_length_le hlength]

/-- The socket goes on. -/
theorem move_client (h : Heard l) {k : Socket.History} (e : l.client.Extends k) :
    Heard { l with client := k } where
  initial := h.initial
  covered c t hct p hp := by
    obtain ⟨x, r, hx, -, -⟩ := hl.served c t hct
    refine h.covered c t hct p ?_
    change p ∈ (k.carried c).take _ at hp
    rwa [e.carried c (List.getElem?_eq_some_iff.1 hx).1] at hp
  bounded p hp := (h.bounded p hp).trans_le (sent_of_extends e 0).length_le
  texts := by
    show l.seen.map (·.2) = l.heard.map (k.text 0)
    rw [h.texts]
    exact List.map_congr_left fun p hp => (text_of_extends e (h.bounded p hp)).symm

/-- Everything before the next position of a call was heard. -/
theorem before (ho : o.requeue = true) (h : Heard l) (hkt : (k, t) ∈ l.errands)
    (hp : (l.client.carried k)[(l.server.toldBy t).length]? = some p) : ∀ q < p, q ∈ l.heard := by
  obtain ⟨x, -, hx, -⟩ := hl.served k t hkt
  have hr : (l.client.world.socket x.owner).requeue = true := by rw [hl.owner hx, hl.requeue, ho]
  -- the call carries consecutive positions, those before it are acknowledged
  obtain ⟨a, n, hrange, hacked⟩ := hl.consecutive k x hx hr
  have hcovered := h.covered k t hkt
  rw [hrange] at hp hcovered
  obtain ⟨hlt, hpa⟩ := List.getElem?_eq_some_iff.1 hp
  rw [List.length_range'] at hlt
  rw [List.getElem_range'] at hpa
  intro q hq
  by_cases hqa : q < a
  · have hq' := hacked q hqa
    rw [hl.owner hx] at hq'
    exact h.acked hl hq'
  · apply hcovered
    refine List.mem_take_iff_getElem.2 ⟨q - a, ?_, ?_⟩
    · omega
    · rw [List.getElem_range']
      omega

/-- The server goes on: nobody is told of anything, or a thread tells the handlers of a message. -/
theorem move_server (ho : o.requeue = true) (h : Heard l) (m : Server.Move) : Heard (l.afterServer m) := by
  cases hl.hears m with
  | nothing htold hheard hseen =>
    refine ⟨?_, fun k u hku p hp => ?_, ?_, ?_⟩
    · rw [hheard]
      exact h.initial
    · change p ∈ (l.client.carried k).take ((l.server.after m).toldBy u).length at hp
      rw [htold k u hku] at hp
      rw [hheard]
      exact h.covered k u hku p hp
    · rw [hheard]
      exact h.bounded
    · rw [hheard, hseen]
      exact h.texts
  | @tells k t c p data y rest hm hkt hy htold hp htext hheard hseen =>
    obtain ⟨n, hn⟩ := h.initial
    refine ⟨?_, fun j u hju q hq => ?_, fun q hq => ?_, ?_⟩
    · rw [hheard]
      exact eraseDups_concat hn (h.before hl ho hkt hp)
    · change q ∈ (l.client.carried j).take ((l.server.after m).toldBy u).length at hq
      rw [hl.take_toldBy hkt htold hp hju, List.mem_append] at hq
      rw [hheard, List.mem_append]
      refine hq.imp (h.covered j u hju q) fun hq => ?_
      split at hq
      · exact hq
      · cases hq
    · rw [hheard, List.mem_append, List.mem_singleton] at hq
      rcases hq with hq | rfl
      · exact h.bounded q hq
      · exact hl.known hkt (List.mem_of_getElem? hp)
    · rw [hheard, hseen]
      show _ = (l.heard ++ [p]).map (l.client.text 0)
      simp [h.texts, htext]

/-- The request of a call reaches the server. -/
theorem request (h : Heard l) (k : Nat) (r : Server.Request) : Heard { l with
      server := l.server.after (.request r)
      errands := l.errands ++ [(k, l.server.world.threads.length)] } where
  __ := h
  covered k' t hkt p hp := by
    rcases List.mem_append.1 hkt with hold | hnew
    · exact h.covered k' t hold p hp
    · -- the thread is new and has told nothing
      rw [List.mem_singleton] at hnew
      cases hnew
      change p ∈ (l.client.carried k).take (l.server.toldBy l.server.world.threads.length).length at hp
      rw [(hl.server.unborn _ le_rfl).1] at hp
      cases hp
  texts := by
    have hseen := l.ours_request (l.server.after (.request r)) k (hl.server.unborn _ le_rfl).1
    exact (congrArg _ hseen).trans h.texts

end Heard

/-- The invariant holds of every run of a socket that queues again. -/
theorem heard_run (o : Socket.Options) (ho : o.requeue = true) (settings : Server.Settings)
    (limiter : Option Server.Limiter) (ids : Server.Ids) (moves : List Move) :
    Heard (run o (.new settings limiter ids) moves) := by
  refine run_induction (motive := fun _ l => Heard l) o settings limiter ids
    ⟨⟨0, rfl⟩, fun _ _ hkt => absurd hkt List.not_mem_nil, fun _ hp => absurd hp List.not_mem_nil, rfl⟩
    (fun _ hl ih hpasses => ?_) moves
  cases hpasses with
  | idle => exact ih
  | client | reply | lose => exact ih.move_client hl (Socket.History.extends_after _ _)
  | server n => exact ih.move_server hl ho n
  | request => exact ih.request hl _ _

/-! ## Other clients -/

/-- Without requests of others, every request that the server has seen is one of the socket. -/
theorem mem_errands_of_origin (o : Socket.Options) (settings : Server.Settings)
    (limiter : Option Server.Limiter) (ids : Server.Ids) (moves : List Move)
    (halone : ∀ r, Move.server (.request r) ∉ moves) {r : Server.Request} :
    (run o (.new settings limiter ids) moves).server.origins[t]? = some (some r) →
      ∃ k, (k, t) ∈ (run o (.new settings limiter ids) moves).errands := by
  refine run_induction (motive := fun moves l => (∀ r, Move.server (.request r) ∉ moves) →
    l.server.origins[t]? = some (some r) → ∃ k, (k, t) ∈ l.errands) o settings limiter ids
    (fun _ ht => by cases ht) (fun {more m l l'} _ hl ih hpasses halone => ?_) moves halone
  replace ih := ih fun r hr => halone r (List.mem_append_left _ hr)
  cases hpasses with
  | idle | client | reply | lose => exact ih
  | server n =>
    intro ht
    refine ih ?_
    obtain ⟨added, hadded, hforeign⟩ := l.server.origins_after n
    change (l.server.after n).origins[t]? = _ at ht
    rw [hadded, List.getElem?_append] at ht
    split at ht
    · exact ht
    · have hn := hforeign r (List.mem_of_getElem? ht)
      exact absurd (by simp [hn]) (halone r)
  | @request k _ r' =>
    intro ht
    change (l.server.origins ++ [some (received r')])[t]? = _ at ht
    rw [List.getElem?_append] at ht
    split at ht
    · obtain ⟨k', hk'⟩ := ih ht
      exact ⟨k', List.mem_append_left _ hk'⟩
    next hge =>
      refine ⟨k, List.mem_append_right _ ?_⟩
      have hlt := (List.getElem?_eq_some_iff.1 ht).1
      rw [List.length_singleton] at hlt
      rw [hl.server.aligned] at hlt hge
      obtain rfl : t = l.server.world.threads.length := by omega
      exact List.mem_singleton_self _

/-- Then all that the handlers were told came from the socket. -/
theorem seen_of_alone (o : Socket.Options) (settings : Server.Settings)
    (limiter : Option Server.Limiter) (ids : Server.Ids) (moves : List Move)
    (halone : ∀ r, Move.server (.request r) ∉ moves) :
    let l := run o (.new settings limiter ids) moves
    l.seen = l.server.told.map (·.2) := by
  intro l
  have hl := linked_run o settings limiter ids moves
  rw [← List.filterMap_eq_map]
  refine List.filterMap_congr fun e he => ?_
  obtain ⟨t, c, data⟩ := e
  have htold : (c, data) ∈ l.server.toldBy t := Server.mem_entriesOf.2 he
  have hlt : t < l.server.world.threads.length := by
    by_contra hge
    rw [(hl.server.unborn t (Nat.le_of_not_lt hge)).1] at htold
    cases htold
  obtain ⟨origin, ho, hcourse⟩ := hl.server.courses t _ (List.getElem?_eq_getElem hlt)
  cases origin with
  | none =>
    rw [hcourse.told_of_none] at htold
    cases htold
  | some r =>
    have hserves : l.serves t = true :=
      State.serves_iff.2 (mem_errands_of_origin o settings limiter ids moves halone ho)
    simp [hserves]

/-! ## Delivery -/

/-- What was heard of the socket was said in its session. -/
theorem session_of_seen (hl : Linked o l) {e : Nat × String} (he : e ∈ l.seen) :
    ∃ id, (l.client.world.socket 0).session = .assigned id ∧
      l.server.world.idOf? e.1 = some id := by
  obtain ⟨⟨t, d⟩, htold, hserves⟩ := List.mem_filterMap.1 he
  split at hserves
  next hs =>
    cases hserves
    obtain ⟨k, hkt⟩ := State.serves_iff.1 hs
    obtain ⟨-, -, -, -, -, hsession⟩ := hl.told hkt
    exact hsession _ (Server.mem_entriesOf.2 htold)
  next => cases hserves

/-- A socket that queues again after a failure delivers in order and at least once, over a network that
loses requests and responses and delays requests without end. The positions that handlers of the server
were told are an initial segment, first occurrences come in order, and every position that was sent was
heard, is carried by the call in flight or waits. Positions stand for messages: those that were heard
for what handlers were told in the session of the socket, which is all they were told if nobody else
makes requests, the others for batches and for the queue. -/
theorem ordered_delivery (o : Socket.Options) (ho : o.requeue = true) (settings : Server.Settings)
    (limiter : Option Server.Limiter) (ids : Server.Ids) (moves : List Move) :
    let l := run o (.new settings limiter ids) moves
    let x := l.client.world.socket 0
    ((∃ n, l.heard.eraseDups = List.range n) ∧
      ∀ p < (l.client.sent 0).length,
        p ∈ l.heard ∨ p ∈ l.client.afloat l.client.world 0 ∨ p ∈ l.client.queued 0) ∧
    (l.seen.map (·.2) = l.heard.map (l.client.text 0) ∧
      (∀ p ∈ l.heard, p < (l.client.sent 0).length) ∧
      (∀ e ∈ l.seen, ∃ id, x.session = .assigned id ∧ l.server.world.idOf? e.1 = some id) ∧
      ((∀ r, Move.server (.request r) ∉ moves) → l.seen = l.server.told.map (·.2))) ∧
    (∀ (c : Nat) (y : Socket.Call), l.client.world.calls[c]? = some y →
      l.client.world.batch c = (l.client.carried c).map (l.client.text 0)) ∧
    x.pending = (l.client.queued 0).map (l.client.text 0) := by
  intro l x
  have hl := linked_run o settings limiter ids moves
  have hheard := heard_run o ho settings limiter ids moves
  refine ⟨⟨hheard.initial, fun p hp => ?_⟩, ⟨hheard.texts, hheard.bounded, fun e he => ?_, ?_⟩, ?_,
    hl.sound.ledger.pending 0⟩
  · have hkept := hl.sound.ledger.kept hl.sound.flights (hl.requeue.trans ho)
    have hmem : p ∈ List.range (l.client.sent 0).length := List.mem_range.2 hp
    rw [← hkept, List.mem_append, List.mem_append, or_assoc] at hmem
    exact hmem.imp_left (hheard.acked hl)
  · exact session_of_seen hl he
  · exact seen_of_alone o settings limiter ids moves
  · intro c y hy
    have hbatch := hl.sound.ledger.batches c y hy
    rw [hl.owner hy] at hbatch
    rw [Socket.World.batch, hy]
    exact hbatch

/-- The pending tasks of the socket are run. -/
def clientSteps (n : Nat) : List Move := .client .drive :: List.replicate n (.client .step)

/-- A thread of the server goes on. -/
def threadSteps (t n : Nat) : List Move := List.replicate n (.server (.step t))

/-- A run in which the request of a call arrives when the next call has repeated its message. -/
def lateRequest : List Move :=
  .client (.post 0 (.send "a")) :: clientSteps 3 ++ .request 0 :: threadSteps 0 3 ++
    .reply 0 :: clientSteps 4 ++ .lose 1 :: clientSteps 2 ++
    .client (.post 0 (.send "b")) :: clientSteps 2 ++ .request 2 :: threadSteps 1 8 ++
    .server (.send 0 "c") :: threadSteps 2 1 ++ threadSteps 1 3 ++ .request 1 :: threadSteps 3 7

/-- The options of a socket that queues again. -/
def requeueing : Socket.Options := { address := "ws://host", requeue := true }

theorem ordered_delivery_lateRequest :
    let l := run requeueing (.new {} none {}) lateRequest
    requeueing.requeue = true ∧ (∀ r, Move.server (.request r) ∉ lateRequest) ∧
      l.heard = [0, 1, 0] ∧ (∃ n, l.heard.eraseDups = List.range n) ∧
      l.seen = l.server.told.map (·.2) := by
  have halone : ∀ r, Move.server (.request r) ∉ lateRequest := by
    simp [lateRequest, clientSteps, threadSteps]
  obtain ⟨⟨hinitial, -⟩, ⟨-, -, -, hseen⟩, -⟩ :=
    ordered_delivery requeueing rfl {} none {} lateRequest
  exact ⟨rfl, halone, by decide +kernel, hinitial, hseen halone⟩

end PollSocket.Link
