import PollSocket.Proofs.Json.Reading
import PollSocket.Proofs.Text.Utf8
import PollSocket.Wire

set_option autoImplicit false

/-!
# Bodies read back

What one side writes the other side reads: drains (`decodeDrainRequest?_body`), their answers
(`decodeDrainResponse_body`) and those of handshakes (`decodeHandshakeResponse_body`). A body of which
only the first bytes are read is refused or read as the whole one (`decodeDrainRequest?_take`).
-/

namespace PollSocket

/-! ## Values of bodies -/

theorem reads_valueOfTexts (messages : List String) : Json.Reads .message (valueOfTexts messages) 1 := by
  refine Json.reads_array fun v hv => ?_
  obtain ⟨s, -, rfl⟩ := List.mem_map.1 hv
  exact Json.reads_string Json.known_message s

/-- A string where containers one deeper are allowed. -/
theorem reads_text (s : String) (n : Nat) : Json.Reads .message (.string s) n :=
  fun afterOpen stack depth rest h => Json.reads_string Json.known_message s afterOpen stack depth rest
    (by omega)

/-- The first value of a written body, with what follows it. -/
theorem first?_encode {v : Json.Value} {n : Nat} (h : Json.Reads .message v n) (hn : n ≤ Json.maxDepth)
    (rest : String) :
    Json.first? (Text.decode (Text.encode (Json.Value.write .message v ++ rest))) =
      some (v, rest.toList) := by
  rw [Text.decode_encode, String.toList_append, Json.Value.write, String.toList_ofList]
  exact Json.first?_of_reads h hn rest.toList

namespace ListField

theorem fill_strings (done cells messages : List String) :
    fill done cells (messages.map .string) =
      some (done.reverse ++ messages ++ cells.drop messages.length) := by
  induction messages generalizing done cells with
  | nil => simp [fill]
  | cons m more ih => simp [fill, ih]

theorem read_texts (messages : List String) :
    ((read {} (valueOfTexts messages)).bind items?) = some messages := by
  cases messages with
  | nil => rfl
  | cons m more =>
    have hfill := fill_strings [] [] (m :: more)
    rw [List.map_cons] at hfill
    simp [read, valueOfTexts, hfill, items?]

end ListField

/-! ## Members of bodies -/

theorem readMember_session {shape : BodyShape} (h : shape.session = true) (f : Fields) (s : String) :
    f.readMember shape ("sessionId", .string s) = some { f with session := s } := by
  have hsame : Text.sameFolded "sessionId" "sessionId" = true := by decide
  simp [Fields.readMember, h, hsame, readText]

theorem readMember_protocol {shape : BodyShape} (h : shape.protocol = true) (f : Fields) (s : String) :
    f.readMember shape ("protocol", .string s) = some { f with protocol := s } := by
  have hother : Text.sameFolded "protocol" "sessionId" = false := by decide
  have hsame : Text.sameFolded "protocol" "protocol" = true := by decide
  simp [Fields.readMember, h, hother, hsame, readText]

theorem readMember_messages {shape : BodyShape} (h : shape.messages = true) (f : Fields)
    (v : Json.Value) :
    f.readMember shape ("messages", v) = (f.messages.read v).map fun l => { f with messages := l } := by
  have hsession : Text.sameFolded "messages" "sessionId" = false := by decide
  have hprotocol : Text.sameFolded "messages" "protocol" = false := by decide
  have hsame : Text.sameFolded "messages" "messages" = true := by decide
  simp [Fields.readMember, h, hsession, hprotocol, hsame]

/-- A body with a list of texts for its messages has that list. -/
theorem read_messages (messages : List String) :
    ∃ l, ListField.read {} (valueOfTexts messages) = some l ∧ l.items? = some messages :=
  Option.bind_eq_some_iff.1 (ListField.read_texts messages)

/-! ## Bodies -/

namespace DrainRequest

/-- The value of the body of a drain. -/
def value (r : DrainRequest) : Json.Value :=
  .object [("sessionId", .string r.session), ("protocol", .string r.protocol),
    ("messages", valueOfTexts r.messages)]

theorem body_eq (r : DrainRequest) : r.body = Text.encode (Json.Value.write .message r.value) := rfl

theorem reads_value (r : DrainRequest) : Json.Reads .message r.value 2 := by
  refine Json.reads_object Json.known_message fun m hm => ?_
  simp only [List.mem_cons, List.not_mem_nil, or_false] at hm
  rcases hm with rfl | rfl | rfl
  · exact reads_text r.session 1
  · exact reads_text r.protocol 1
  · exact reads_valueOfTexts r.messages

theorem ofValue_value (r : DrainRequest) :
    ∃ f, Fields.ofValue .drainRequest r.value = some f ∧
      (⟨f.session, f.protocol, f.messages.items?.getD []⟩ : DrainRequest) = r := by
  obtain ⟨l, hread, hitems⟩ := read_messages r.messages
  refine ⟨⟨r.session, r.protocol, l⟩, ?_, ?_⟩
  · simp [value, Fields.ofValue, Fields.readMembers, readMember_session, readMember_protocol,
      readMember_messages, BodyShape.drainRequest, hread]
  · simp [hitems]

end DrainRequest

/-- A drain is read from the beginning of every body that begins with it. -/
theorem decodeDrainRequest?_append (r : DrainRequest) (more : List UInt8) :
    decodeDrainRequest? (r.body ++ more) = some r := by
  have hfirst : Json.first? (Text.decode (r.body ++ more)) = some (r.value, Text.decode more) := by
    rw [DrainRequest.body_eq, Text.decode_encode_append, Json.Value.write, String.toList_ofList]
    exact Json.first?_of_reads r.reads_value (by decide) (Text.decode more)
  obtain ⟨f, hfields, hr⟩ := r.ofValue_value
  rw [decodeDrainRequest?, hfirst, Option.bind_some, hfields]
  exact congrArg some hr

/-- A drain is read as it was written. -/
theorem decodeDrainRequest?_body (r : DrainRequest) : decodeDrainRequest? r.body = some r := by
  have hread := decodeDrainRequest?_append r []
  rwa [List.append_nil] at hread

/-- The value of an answer to a handshake. -/
theorem reads_handshakeResponse (session : String) :
    Json.Reads .message (.object [("sessionId", .string session)]) 1 := by
  refine Json.reads_object Json.known_message fun m hm => ?_
  rw [List.mem_singleton.1 hm]
  exact reads_text session 0

theorem ofValue_handshakeResponse (session : String) :
    Fields.ofValue .handshakeResponse (.object [("sessionId", .string session)]) =
      some { session } := by
  simp [Fields.ofValue, Fields.readMembers, readMember_session, BodyShape.handshakeResponse]

/-- The answer to a handshake brings the session id. -/
theorem decodeHandshakeResponse_body {session : String} (h : session ≠ "") :
    decodeHandshakeResponse (handshakeResponseBody session) = .ok session := by
  have hfirst := first?_encode (reads_handshakeResponse session) (by decide) "\n"
  have hwhole : Json.whole? (Text.decode (handshakeResponseBody session)) =
      some (.object [("sessionId", .string session)]) := by
    rw [Json.whole?, handshakeResponseBody, hfirst]
    rfl
  rw [decodeHandshakeResponse, hwhole, Option.bind_some, ofValue_handshakeResponse]
  simp [h]

/-- The value of an answer to a drain. -/
theorem reads_drainResponse (messages : List String) :
    Json.Reads .message (.object [("messages", valueOfTexts messages)]) 2 := by
  refine Json.reads_object Json.known_message fun m hm => ?_
  rw [List.mem_singleton.1 hm]
  exact reads_valueOfTexts messages

theorem whole?_drainResponseBody (messages : List String) :
    Json.whole? (Text.decode (drainResponseBody messages)) =
      some (.object [("messages", valueOfTexts messages)]) := by
  rw [Json.whole?, drainResponseBody, first?_encode (reads_drainResponse messages) (by decide) "\n"]
  rfl

/-- The answer to a drain brings the messages. -/
theorem decodeDrainResponse_body (messages : List String) :
    decodeDrainResponse (drainResponseBody messages) = .ok messages := by
  obtain ⟨l, hread, hitems⟩ := read_messages messages
  have hfields : Fields.ofValue .drainResponse (.object [("messages", valueOfTexts messages)]) =
      some { messages := l } := by
    simp [Fields.ofValue, Fields.readMembers, readMember_messages, BodyShape.drainResponse, hread]
  rw [decodeDrainResponse, whole?_drainResponseBody, Option.bind_some, hfields]
  simp [hitems]

/-! ## Bodies of which the first bytes are read -/

/-- The first value of some bytes of a body: a number, or the first value of the body. -/
theorem first?_take (body : List UInt8) (n : Nat) {v : Json.Value} {rest : List Char}
    (h : Json.first? (Text.decode (body.take n)) = some (v, rest)) :
    (∃ text, v = .number text) ∨ ∃ rest, Json.first? (Text.decode body) = some (v, rest) := by
  obtain ⟨front, back, j, hfull, hcut⟩ := Text.decode_take body n
  rw [hcut] at h
  rw [hfull]
  rcases Json.first?_cut front back j h with hnumber | ⟨left, hfirst⟩
  · exact Or.inl hnumber
  · exact Or.inr ⟨left ++ back, hfirst⟩

/-- A drain that is read from the first bytes of a body is the drain of the whole body. -/
theorem decodeDrainRequest?_take {body : List UInt8} {n : Nat} {r : DrainRequest}
    (h : decodeDrainRequest? (body.take n) = some r) : decodeDrainRequest? body = some r := by
  unfold decodeDrainRequest? at h ⊢
  cases hfirst : Json.first? (Text.decode (body.take n)) with
  | none =>
    rw [hfirst] at h
    cases h
  | some first =>
    obtain ⟨v, rest⟩ := first
    rw [hfirst] at h
    rcases first?_take body n hfirst with ⟨text, rfl⟩ | ⟨rest', hfull⟩
    · cases h
    · rw [hfull]
      exact h

/-- The value that some bytes of a body are: a number, or the first value of the body. -/
theorem whole?_take (body : List UInt8) (n : Nat) {v : Json.Value}
    (h : Json.whole? (Text.decode (body.take n)) = some v) :
    (∃ text, v = .number text) ∨ ∃ rest, Json.first? (Text.decode body) = some (v, rest) := by
  unfold Json.whole? at h
  cases hfirst : Json.first? (Text.decode (body.take n)) with
  | none =>
    rw [hfirst] at h
    cases h
  | some first =>
    obtain ⟨u, rest⟩ := first
    rw [hfirst] at h
    dsimp only at h
    split at h
    · cases h
      exact first?_take body n hfirst
    · cases h

/-- The session id that is read from the first bytes of an answer to a handshake is the right one. -/
theorem session_of_decodeHandshakeResponse {session id : String} {n : Nat}
    (h : decodeHandshakeResponse ((handshakeResponseBody session).take n) = .ok id) :
    id = session := by
  have hfull := first?_encode (reads_handshakeResponse session) (by decide) "\n"
  unfold decodeHandshakeResponse at h
  cases hwhole : Json.whole? (Text.decode ((handshakeResponseBody session).take n)) with
  | none =>
    rw [hwhole] at h
    cases h
  | some v =>
    rw [hwhole, Option.bind_some] at h
    rcases whole?_take _ n hwhole with ⟨text, rfl⟩ | ⟨rest, hv⟩
    · cases h
    · rw [handshakeResponseBody, hfull, Option.some.injEq, Prod.mk.injEq] at hv
      rw [← hv.1, ofValue_handshakeResponse] at h
      dsimp only at h
      split at h
      · cases h
      · cases h
        rfl

/-- The messages that are read from the first bytes of an answer to a drain are the right ones. -/
theorem messages_of_decodeDrainResponse {messages read : List String} {n : Nat}
    (h : decodeDrainResponse ((drainResponseBody messages).take n) = .ok read) : read = messages := by
  have hfull := first?_encode (reads_drainResponse messages) (by decide) "\n"
  have hread := decodeDrainResponse_body messages
  unfold decodeDrainResponse at h hread
  rw [whole?_drainResponseBody, Option.bind_some] at hread
  cases hwhole : Json.whole? (Text.decode ((drainResponseBody messages).take n)) with
  | none =>
    rw [hwhole] at h
    cases h
  | some v =>
    rw [hwhole, Option.bind_some] at h
    rcases whole?_take _ n hwhole with ⟨text, rfl⟩ | ⟨rest, hv⟩
    · cases h
    · rw [drainResponseBody, hfull, Option.some.injEq, Prod.mk.injEq] at hv
      rw [← hv.1] at h
      exact (Except.ok.inj (hread.symm.trans h)).symm

end PollSocket
