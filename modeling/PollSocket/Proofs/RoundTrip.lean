import PollSocket.Proofs.Wire

set_option autoImplicit false

/-!
# Round trips over the wire

What one side writes the other side reads, whatever the texts are. A drain is the first value of its body, so
that bytes behind it do not matter (`decodeDrainRequest?_append`), and a body that is cut short is refused
(`decodeDrainRequest?_short`): the server, which reads a limited number of bytes, reads a drain exactly if all
of it is among them. Answers are read as a whole, with the line end behind them (`wire_round_trip`).
-/

namespace PollSocket

/-! ## Bytes -/

namespace Text

/-- A character takes a byte at least. -/
theorem length_le_encode (s : String) : s.toList.length ≤ (encode s).length := by
  rw [encode_eq]
  induction s.toList with
  | nil => exact Nat.le_refl 0
  | cons c cs ih =>
    have hc : 0 < (String.utf8EncodeChar c).length := by
      rw [String.length_utf8EncodeChar]
      exact Char.utf8Size_pos c
    rw [List.flatMap_cons, List.length_append, List.length_cons]
    omega

end Text

namespace Json

/-- The characters of a literal are no fewer than those of its text. -/
theorem length_le_literal (e : Escapes) (s : String) : s.toList.length ≤ (e.literal s).length := by
  have hchar : ∀ c, 0 < (e.char c).length := by
    intro c
    unfold Escapes.char
    split
    · exact Nat.succ_pos 1
    · split
      · exact Nat.succ_pos 1
      · split
        · exact Nat.succ_pos _
        · exact Nat.succ_pos 0
  have hall : s.toList.length ≤ (s.toList.flatMap e.char).length := by
    induction s.toList with
    | nil => exact Nat.le_refl 0
    | cons c cs ih =>
      have hc := hchar c
      rw [List.flatMap_cons, List.length_append, List.length_cons]
      omega
  rw [Escapes.literal, List.cons_append, List.length_cons, List.length_append]
  omega

end Json

/-! ## Drains -/

namespace DrainRequest

/-- What stands before the last character of the body of a drain. -/
def stem (r : DrainRequest) : String :=
  String.ofList ('\x7b' :: Json.memberChars .message [("sessionId", .string r.session),
    ("protocol", .string r.protocol), ("messages", valueOfTexts r.messages)])

theorem write_value (r : DrainRequest) : Json.Value.write .message r.value = r.stem ++ "\x7d" := by
  rw [← String.toList_inj, String.toList_append, Json.Value.write, stem, String.toList_ofList,
    String.toList_ofList]
  rfl

/-- The body of a drain is longer than its message. -/
theorem length_lt_body (session protocol message : String) :
    message.toList.length < (body ⟨session, protocol, [message]⟩).length := by
  refine Nat.lt_of_lt_of_le ?_ (Text.length_le_encode _)
  have hliteral := Json.length_le_literal .message message
  rw [Json.Value.write, String.toList_ofList]
  simp only [Json.memberChars, valueOfTexts, List.map_cons, List.map_nil, Json.Value.chars, Json.itemChars,
    List.length_append, List.length_cons]
  omega

end DrainRequest

/-- A drain that is cut short is refused. -/
theorem decodeDrainRequest?_short (r : DrainRequest) {n : Nat} (hn : n < r.body.length) :
    decodeDrainRequest? (r.body.take n) = none := by
  have hend : Text.encode "\x7d" = [0x7d] := by decide
  have hbody : r.body = Text.encode r.stem ++ [0x7d] := by
    rw [DrainRequest.body_eq, DrainRequest.write_value, Text.encode_append, hend]
  have hle : n ≤ (Text.encode r.stem).length := by
    rw [hbody, List.length_append, List.length_singleton] at hn
    omega
  obtain ⟨front, back, j, hfull, hcut⟩ := Text.decode_take (Text.encode r.stem) n
  rw [Text.decode_encode] at hfull
  rw [hbody, List.take_append_of_le_length hle, decodeDrainRequest?, hcut]
  cases hfirst : Json.first? (front ++ List.replicate j Text.replacement) with
  | none => rfl
  | some first =>
    obtain ⟨v, rest⟩ := first
    rw [Option.bind_some]
    -- the last character has been cut off at least, but nothing is left over behind the whole value
    rcases Json.first?_cut front (back ++ ['\x7d']) j hfirst with ⟨text, rfl⟩ | ⟨left, hleft⟩
    · rfl
    · have hwhole := Json.first?_of_reads r.reads_value (by decide) []
      have hchars : Json.Value.chars .message r.value = front ++ (back ++ ['\x7d']) := by
        rw [← List.append_assoc, ← hfull]
        have hwritten := congrArg String.toList r.write_value
        rwa [Json.Value.write, String.toList_ofList, String.toList_append] at hwritten
      rw [List.append_nil, hchars, hleft] at hwhole
      simp at hwhole

/-- Of a body of which `n` bytes are read a drain is read exactly if all of it is among them. -/
theorem decodeDrainRequest?_take_append (r : DrainRequest) (more : List UInt8) (n : Nat) :
    decodeDrainRequest? ((r.body ++ more).take n) = if r.body.length ≤ n then some r else none := by
  split
  next hfits =>
    rw [List.take_append, List.take_of_length_le hfits]
    exact decodeDrainRequest?_append r _
  next hlong =>
    have hlt : n < r.body.length := Nat.lt_of_not_le hlong
    rw [List.take_append_of_le_length hlt.le]
    exact decodeDrainRequest?_short r hlt

/-! ## Both ways -/

theorem getLast?_encode_line (s : String) : (Text.encode (s ++ "\n")).getLast? = some 10 := by
  have hend : Text.encode "\n" = [10] := by decide
  rw [Text.encode_append, hend, List.getLast?_concat]

/-- What is written is read back. A drain is read whatever bytes follow it, and through the limit of the
server exactly if its body is within the limit; answers end with a line end and are read as a whole. -/
theorem wire_round_trip :
    (∀ (r : DrainRequest) (more : List UInt8), decodeDrainRequest? (r.body ++ more) = some r ∧
      decodeDrainRequest? ((r.body ++ more).take maxBody) =
        if r.body.length ≤ maxBody then some r else none) ∧
    (∀ messages : List String, (drainResponseBody messages).getLast? = some 10 ∧
      decodeDrainResponse (drainResponseBody messages) = .ok messages) ∧
    (∀ session : String, (handshakeResponseBody session).getLast? = some 10 ∧
      (session ≠ "" → decodeHandshakeResponse (handshakeResponseBody session) = .ok session)) := by
  refine ⟨fun r more => ⟨?_, ?_⟩, fun messages => ⟨?_, ?_⟩, fun session => ⟨?_, ?_⟩⟩
  · exact decodeDrainRequest?_append r more
  · exact decodeDrainRequest?_take_append r more maxBody
  · exact getLast?_encode_line _
  · exact decodeDrainResponse_body messages
  · exact getLast?_encode_line _
  · exact decodeHandshakeResponse_body

/-- A drain with one long message. -/
def longDrain : DrainRequest :=
  ⟨"00000000-0000-4000-8000-000000000001", defaultProtocol, [String.ofList (List.replicate maxBody 'a')]⟩

/-- The server does not read a drain whose body is over its limit. -/
theorem longDrain_refused : decodeDrainRequest? (longDrain.body.take maxBody) ≠ some longDrain := by
  have hlong : maxBody < longDrain.body.length := by
    have hlt := DrainRequest.length_lt_body longDrain.session longDrain.protocol
      (String.ofList (List.replicate maxBody 'a'))
    rwa [String.toList_ofList, List.length_replicate] at hlt
  rw [decodeDrainRequest?_short longDrain hlong]
  exact nofun

end PollSocket
