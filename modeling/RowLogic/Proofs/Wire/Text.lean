/-
**The framing of texts.**

A text stands behind the number of its bytes. Reading one can fail at three places, and each failure
leaves the reader in front of the number:

* `Read.text_of_short_length`: fewer than four bytes are left;
* `Read.text_of_short`: fewer bytes are left behind the number than it says, whatever it says;
* `Read.text_of_room`: the bytes are there, and are no text.

`Read.text_framed` puts them together with what makes a text (`Proofs.Bytes.Defects`).
-/

import RowLogic.Proofs.Bytes.Defects
import RowLogic.Proofs.Bytes.Words
import RowLogic.Proofs.Diagnostic.Messages
import RowLogic.Proofs.Wire.Composition

namespace RowLogic

namespace Reader

/-- The number that the next four bytes denote. -/
def announced (reader : Reader) : Nat :=
  LittleEndian.decode (reader.rest.take 4)

/-- As many bytes behind these four as they say. -/
def framed (reader : Reader) : List UInt8 :=
  (reader.rest.drop 4).take reader.announced

theorem announced_lt (reader : Reader) : reader.announced < 0x100000000 :=
  calc reader.announced < 256 ^ (reader.rest.take 4).length := LittleEndian.decode_lt _
    _ ≤ 256 ^ 4 := Nat.pow_le_pow_right (by decide) (List.length_take_le 4 _)

theorem length_framed {reader : Reader} (within : reader.announced ≤ reader.remaining - 4) :
    reader.framed.length = reader.announced := by
  rw [framed, List.length_take, List.length_drop]
  exact Nat.min_eq_left within

end Reader

namespace Read

variable {reader after : Reader}

/-! ### The three failures -/

theorem uint32_of_short (short : reader.remaining < 4) :
    uint32 reader = .error (.wire (.truncated "u32" 4 reader.remaining)) reader := by
  unfold uint32 takeWord
  rw [map_eq_bind, map_eq_bind, bind_error (bind_error (take_short short))]

theorem uint32_of_room (room : 4 ≤ reader.remaining) :
    uint32 reader = .ok (UInt32.ofNat reader.announced) (reader.advance 4) := by
  have word : takeWord "u32" 4 reader = .ok reader.announced (reader.advance 4) := by
    unfold takeWord
    rw [map_eq_bind, bind_ok (take_ok room)]
    rfl
  unfold uint32
  rw [map_eq_bind, bind_ok word]
  rfl

theorem text_of_short_length (short : reader.remaining < 4) :
    text reader = .error (.wire (.truncated "u32" 4 reader.remaining)) reader := by
  have place : offset reader = .ok reader.offset reader := rfl
  unfold text atomic
  rw [bind_ok place, bind_error (uint32_of_short short)]

theorem toNat_announced (reader : Reader) :
    (UInt32.ofNat reader.announced).toNat = reader.announced :=
  UInt32.toNat_ofNat_of_lt' reader.announced_lt

theorem text_of_short (room : 4 ≤ reader.remaining)
    (short : reader.remaining - 4 < reader.announced) :
    text reader =
      .error (.wire (.truncated "utf8" reader.announced (reader.remaining - 4))) reader := by
  have place : offset reader = .ok reader.offset reader := rfl
  rw [← Reader.remaining_advance] at short ⊢
  unfold text atomic
  rw [bind_ok place, bind_ok (uint32_of_room room), toNat_announced, bind_error (take_short short)]

/-- Where the bytes are there, they are judged. -/
theorem text_of_room (room : 4 ≤ reader.remaining)
    (within : reader.announced ≤ reader.remaining - 4) :
    text reader = match Utf8.decode reader.framed with
      | .ok content => .ok content (reader.advance (4 + reader.announced))
      | .error defect => .error (.wire (.invalidUtf8 reader.offset defect.message)) reader := by
  have place : offset reader = .ok reader.offset reader := rfl
  have taken : take "utf8" reader.announced (reader.advance 4) =
      .ok reader.framed (reader.advance (4 + reader.announced)) := by
    rw [← Reader.remaining_advance] at within
    rw [take_ok within, Reader.advance_advance]
    rfl
  unfold text atomic
  rw [bind_ok place, bind_ok (uint32_of_room room), toNat_announced, bind_ok taken]
  cases Utf8.decode reader.framed <;> rfl

/-! ### All outcomes -/

/-- A text is read where its length and its bytes stand. -/
theorem text_ok_iff {content : String} :
    text reader = .ok content after ↔
      4 ≤ reader.remaining ∧ reader.announced = (Utf8.encode content).length ∧
        (Utf8.encode content).length ≤ reader.remaining - 4 ∧
        (reader.rest.drop 4).take (Utf8.encode content).length = Utf8.encode content ∧
        after = reader.advance (4 + (Utf8.encode content).length) := by
  by_cases short : reader.remaining < 4
  · rw [text_of_short_length short]
    exact iff_of_false nofun fun given => absurd given.1 (Nat.not_le_of_lt short)
  have room := Nat.le_of_not_lt short
  by_cases cut : reader.remaining - 4 < reader.announced
  · rw [text_of_short room cut]
    refine iff_of_false nofun fun given => ?_
    omega
  have within := Nat.le_of_not_lt cut
  rw [text_of_room room within]
  refine ⟨fun run => ?_, fun given => ?_⟩
  · cases judged : Utf8.decode reader.framed with
    | error defect =>
      rw [judged] at run
      cases run
    | ok found =>
      rw [judged] at run
      cases run
      have bytes := Utf8.decode_eq_ok_iff.mp judged
      have size : (Utf8.encode content).length = reader.announced := by
        rw [bytes, Reader.length_framed within]
      rw [size]
      exact ⟨room, rfl, within, bytes.symm, rfl⟩
  · obtain ⟨-, size, -, bytes, rfl⟩ := given
    have framed : Utf8.encode content = reader.framed := by
      rw [Reader.framed, size, bytes]
    rw [Utf8.decode_eq_ok_iff.mpr framed, size]

/-- A read is refused with a fault that is reported with this code and this message, and the reader
stays where it is. -/
def RefusedFor {α : Type} (body : Read α) (reader : Reader) (fault : Fault)
    (code message : String) : Prop :=
  body reader = .error fault reader ∧ fault.diagnostic.Tells code message

/-- **The framing of texts is exact.** A text is read exactly where four bytes denote the number of
its bytes and these follow. Otherwise the reader stays where it is, and what is at fault is, in this
order: the length, if fewer than four bytes are left; the text, if fewer bytes follow than the
length says; or the bytes. Then the reason names the length of the longest text that they begin
with, and it is that of an incomplete sequence exactly when more bytes would make a text. -/
theorem text_framed (reader : Reader) :
    (∀ content after, text reader = .ok content after ↔
      4 ≤ reader.remaining ∧ reader.announced = (Utf8.encode content).length ∧
        (Utf8.encode content).length ≤ reader.remaining - 4 ∧
        (reader.rest.drop 4).take (Utf8.encode content).length = Utf8.encode content ∧
        after = reader.advance (4 + (Utf8.encode content).length)) ∧
    (reader.remaining < 4 →
      RefusedFor text reader (.wire (.truncated "u32" 4 reader.remaining)) "WIRE_001"
        ("Unexpected end of input while reading u32: needed 4 byte(s), " ++
          toString reader.remaining ++ " remaining")) ∧
    (4 ≤ reader.remaining → reader.remaining - 4 < reader.announced →
      RefusedFor text reader
        (.wire (.truncated "utf8" reader.announced (reader.remaining - 4))) "WIRE_001"
        ("Unexpected end of input while reading utf8: needed " ++ toString reader.announced ++
          " byte(s), " ++ toString (reader.remaining - 4) ++ " remaining")) ∧
    (4 ≤ reader.remaining → reader.announced ≤ reader.remaining - 4 →
      (∀ content, Utf8.encode content ≠ reader.framed) →
      ∃ index reason, Utf8.Explains reader.framed index reason ∧
        RefusedFor text reader (.wire (.invalidUtf8 reader.offset reason)) "WIRE_004"
          ("Invalid UTF-8 text at offset " ++ toString reader.offset ++ ": " ++ reason)) := by
  refine ⟨fun _ _ => text_ok_iff, fun short => ⟨text_of_short_length short, Fault.tells _⟩,
    fun room short => ⟨text_of_short room short, Fault.tells _⟩, fun room within invalid => ?_⟩
  cases judged : Utf8.decode reader.framed with
  | ok content => exact absurd (Utf8.decode_eq_ok_iff.mp judged) (invalid content)
  | error defect =>
    have run := text_of_room room within
    rw [judged] at run
    exact ⟨_, _, Utf8.explains judged, run, Fault.tells _⟩

/-- A length cut short; the greatest length, with one byte behind it; and three bytes of which the
last two begin a sequence of three. -/
theorem text_framed_incomplete :
    let cut : Reader := { rest := [3, 0], offset := 7 }
    let short : Reader := { rest := [0xff, 0xff, 0xff, 0xff, 0x61], offset := 7 }
    let reader : Reader := { rest := [3, 0, 0, 0, 0x61, 0xe2, 0x82, 9], offset := 7 }
    (cut.remaining < 4 ∧ RefusedFor text cut (.wire (.truncated "u32" 4 2)) "WIRE_001"
      "Unexpected end of input while reading u32: needed 4 byte(s), 2 remaining") ∧
    (4 ≤ short.remaining ∧ short.remaining - 4 < short.announced ∧
      RefusedFor text short (.wire (.truncated "utf8" 4294967295 1)) "WIRE_001"
        "Unexpected end of input while reading utf8: needed 4294967295 byte(s), 1 remaining") ∧
    (4 ≤ reader.remaining ∧ reader.announced ≤ reader.remaining - 4 ∧
      (∀ content, Utf8.encode content ≠ reader.framed) ∧
      RefusedFor text reader
        (.wire (.invalidUtf8 7 "incomplete utf-8 byte sequence from index 1")) "WIRE_004"
        "Invalid UTF-8 text at offset 7: incomplete utf-8 byte sequence from index 1") := by
  intro cut short reader
  have judged : Utf8.decode reader.framed = .error (.incomplete 1) := rfl
  have invalid : ∀ content, Utf8.encode content ≠ reader.framed := by
    intro content same
    rw [Utf8.decode_eq_ok_iff.mpr same] at judged
    cases judged
  have completed : Utf8.encode "a€" = reader.framed ++ [0xac] := by decide
  have cut_left : cut.remaining = 2 := rfl
  have short_left : short.remaining - 4 = 1 := rfl
  have short_announced : short.announced = 4294967295 := rfl
  have place : reader.offset = 7 := rfl
  obtain ⟨-, of_cut, -, -⟩ := text_framed cut
  obtain ⟨-, -, of_short, -⟩ := text_framed short
  obtain ⟨-, -, -, of_invalid⟩ := text_framed reader
  rw [cut_left] at of_cut
  rw [short_left, short_announced] at of_short
  rw [place] at of_invalid
  obtain ⟨index, reason, explained, told⟩ := of_invalid (by decide) (by decide) invalid
  obtain rfl : index = 1 := explained.longest.unique (Utf8.index_isGreatest judged)
  obtain rfl := explained.incomplete.mpr ⟨[0xac], "a€", completed⟩
  exact ⟨⟨by decide, of_cut (by decide)⟩, ⟨by decide, by decide, of_short (by decide) (by decide)⟩,
    by decide, by decide, invalid, told⟩

end Read

end RowLogic
