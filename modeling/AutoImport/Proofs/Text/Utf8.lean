import AutoImport.Files.Content
import AutoImport.Proofs.Text.Cursor
import AutoImport.Proofs.Text.Search
import AutoImport.Text.Utf8
import Mathlib.Tactic.SplitIfs

/-!
# Texts by their bytes

A character of ASCII is one byte, and no byte of another character is one of those. A text can
therefore be cut at a character of ASCII before or after it is turned into bytes.
-/

namespace AutoImport.Text

/-! ## The bytes of a text -/

theorem bytesOf_append (front back : List Char) :
    bytesOf (front ++ back) = bytesOf front ++ bytesOf back :=
  List.flatMap_append

theorem length_bytesOf (text : List Char) : (bytesOf text).length = byteLength text := by
  induction text with
  | nil => rfl
  | cons c text ih =>
      rw [bytesOf, List.flatMap_cons, List.length_append, String.length_utf8EncodeChar, byteLength, ← ih]
      rfl

theorem utf8EncodeChar_of_ascii {c : Char} (ascii : c.toNat < 128) :
    String.utf8EncodeChar c = [byteOf c] :=
  if_pos (Nat.le_of_lt_succ ascii)

theorem le_toNat_ofNat {value : Nat} (low : 128 ≤ value) (high : value < 256) :
    128 ≤ (UInt8.ofNat value).toNat := by
  rwa [UInt8.toNat_ofNat_of_lt' high]

theorem le_toNat_of_mem_utf8EncodeChar {c : Char} (wide : 128 ≤ c.toNat) :
    ∀ byte ∈ String.utf8EncodeChar c, 128 ≤ byte.toNat := by
  change 128 ≤ c.val.toNat at wide
  unfold String.utf8EncodeChar
  simp only
  split_ifs
  · omega
  all_goals
    simp only [List.forall_mem_cons, List.not_mem_nil, false_imp_iff, implies_true, and_true]
    and_intros <;> exact le_toNat_ofNat (by omega) (by omega)

theorem decode?_bytesOf (text : String) : FileContent.decode? (bytesOf text.toList) = some text := by
  have same : (⟨(bytesOf text.toList).toArray⟩ : ByteArray) = text.toByteArray := by
    rw [← String.utf8Encode_toList, List.utf8Encode]
    exact ByteArray.ext List.data_toByteArray.symm
  rw [FileContent.decode?, same]
  exact dif_pos text.isValidUTF8

theorem eq_bytesOf_of_decode? {raw : List UInt8} {text : String}
    (read : FileContent.decode? raw = some text) : raw = bytesOf text.toList := by
  have encoded : text.toByteArray.data.toList = bytesOf text.toList := by
    rw [← String.utf8Encode_toList, List.utf8Encode, List.data_toByteArray]
    rfl
  unfold FileContent.decode? String.fromUTF8? at read
  split at read
  · rw [← encoded, ← Option.some.inj read]
    rfl
  · cases read

/-! ## The letters of a text -/

theorem toNat_letterOf (byte : UInt8) : (letterOf byte).toNat = byte.toNat := by
  have small := byte.toNat_lt
  have valid : byte.toNat.isValidChar := .inl (by omega)
  rw [letterOf, Char.ofNat, dif_pos valid]
  rfl

theorem byteOf_letterOf (byte : UInt8) : byteOf (letterOf byte) = byte := by
  rw [byteOf, toNat_letterOf, UInt8.ofNat_toNat]

theorem letterOf_byteOf {letter : Char} (small : letter.toNat < 256) :
    letterOf (byteOf letter) = letter := by
  rw [letterOf, byteOf, UInt8.toNat_ofNat_of_lt' small, Char.ofNat_toNat]

/-- A text with a letter for each of its bytes. -/
def inLetters (text : List Char) : List Char :=
  (bytesOf text).map letterOf

theorem map_byteOf_inLetters (text : List Char) : (inLetters text).map byteOf = bytesOf text := by
  rw [inLetters, List.map_map]
  exact List.map_id'' byteOf_letterOf _

theorem bytesOf_injective {text other : List Char} (same : bytesOf text = bytesOf other) :
    text = other := by
  have read := decode?_bytesOf (String.ofList text)
  rw [String.toList_ofList, same, ← @String.toList_ofList other, decode?_bytesOf] at read
  exact (String.ofList_inj.mp (Option.some.inj read)).symm

theorem inLetters_injective {text other : List Char} (same : inLetters text = inLetters other) :
    text = other := by
  apply bytesOf_injective
  rw [← map_byteOf_inLetters, same, map_byteOf_inLetters]

theorem inLetters_append (front back : List Char) :
    inLetters (front ++ back) = inLetters front ++ inLetters back := by
  rw [inLetters, bytesOf_append, List.map_append]
  rfl

theorem inLetters_cons_of_ascii {c : Char} (ascii : c.toNat < 128) (text : List Char) :
    inLetters (c :: text) = c :: inLetters text := by
  rw [inLetters, bytesOf, List.flatMap_cons, utf8EncodeChar_of_ascii ascii, List.singleton_append,
    List.map_cons, letterOf_byteOf (by omega)]
  rfl

def IsAscii (text : List Char) : Prop :=
  ∀ c ∈ text, c.toNat < 128

-- Decided along the text, not by a search through all characters.
instance (text : List Char) : Decidable (IsAscii text) :=
  List.decidableBAll _ text

theorem inLetters_of_ascii {text : List Char} (ascii : IsAscii text) :
    inLetters text = text := by
  induction text with
  | nil => rfl
  | cons c text ih =>
      rcases List.forall_mem_cons.mp ascii with ⟨first, later⟩
      rw [inLetters_cons_of_ascii first, ih later]

theorem inLetters_eq_iff {text plain : List Char} (ascii : IsAscii plain) :
    inLetters text = plain ↔ text = plain := by
  constructor
  · intro same
    exact inLetters_injective (same.trans (inLetters_of_ascii ascii).symm)
  · rintro rfl
    exact inLetters_of_ascii ascii

theorem eq_of_mem_inLetters_singleton {c first : Char} (ascii : c.toNat < 128)
    (member : c ∈ inLetters [first]) : first = c := by
  by_cases narrow : first.toNat < 128
  · rw [inLetters_cons_of_ascii narrow] at member
    exact (List.mem_singleton.mp member).symm
  · rcases List.mem_map.mp member with ⟨byte, inside, rfl⟩
    rw [bytesOf, List.flatMap_singleton] at inside
    have wide := le_toNat_of_mem_utf8EncodeChar (Nat.le_of_not_lt narrow) byte inside
    rw [toNat_letterOf] at ascii
    omega

/-- A cut at a character of ASCII is one of the text itself. -/
theorem exists_of_inLetters_eq {text front back : List Char} {c : Char} (ascii : c.toNat < 128)
    (cut : inLetters text = front ++ c :: back) :
    ∃ before after, text = before ++ c :: after ∧ front = inLetters before ∧
      back = inLetters after := by
  induction text generalizing front with
  | nil => simp [inLetters, bytesOf] at cut
  | cons first text ih =>
      by_cases here : first = c ∧ front = []
      · obtain ⟨rfl, rfl⟩ := here
        rw [inLetters_cons_of_ascii ascii] at cut
        exact ⟨[], text, rfl, rfl, (List.cons.inj cut).2.symm⟩
      · rw [← List.singleton_append, inLetters_append, List.append_eq_append_iff] at cut
        -- The character is none of the letters of `first`, so the cut lies behind them.
        obtain ⟨more, rfl, later⟩ : ∃ more, front = inLetters [first] ++ more ∧
            inLetters text = more ++ c :: back := by
          rcases cut with behind | ⟨more, whole, begins⟩
          · exact behind
          · cases more with
            | nil => exact ⟨[], by simpa using whole.symm, begins.symm⟩
            | cons next more =>
                obtain ⟨rfl, -⟩ := List.cons.inj begins
                have member : c ∈ inLetters [first] := by simp [whole]
                obtain rfl := eq_of_mem_inLetters_singleton ascii member
                rw [inLetters_of_ascii (List.forall_mem_singleton.mpr ascii),
                  List.singleton_eq_append_iff] at whole
                have empty : front = [] ∧ more = [] := by simpa using whole
                exact absurd ⟨rfl, empty.1⟩ here
        rcases ih later with ⟨before, after, rfl, rfl, rfl⟩
        exact ⟨first :: before, after, rfl, (inLetters_append [first] before).symm, rfl⟩

theorem mem_inLetters_iff {text : List Char} {c : Char} (ascii : c.toNat < 128) :
    c ∈ inLetters text ↔ c ∈ text := by
  constructor
  · intro member
    rcases List.append_of_mem member with ⟨front, back, cut⟩
    rcases exists_of_inLetters_eq ascii cut with ⟨before, after, rfl, -, -⟩
    simp
  · intro member
    rcases List.append_of_mem member with ⟨before, after, rfl⟩
    simp [inLetters_append, inLetters_cons_of_ascii ascii]

theorem startsWith_inLetters {c : Char} (ascii : c.toNat < 128) (text : List Char) :
    startsWith [c] (inLetters text) = startsWith [c] text := by
  rw [Bool.eq_iff_iff, startsWith_iff, startsWith_iff]
  constructor
  · rintro ⟨back, cut⟩
    have start : inLetters text = [] ++ c :: back := cut
    rcases exists_of_inLetters_eq ascii start with ⟨before, after, rfl, empty, -⟩
    rw [(inLetters_eq_iff (by decide)).mp empty.symm]
    exact ⟨after, rfl⟩
  · rintro ⟨rest, rfl⟩
    exact ⟨inLetters rest, inLetters_cons_of_ascii ascii rest⟩

/-- A text ends in characters of ASCII when its letters do. -/
theorem dropSuffix?_inLetters {ending : List Char} (ascii : IsAscii ending)
    (text : List Char) :
    dropSuffix? ending (inLetters text) = (dropSuffix? ending text).map inLetters := by
  cases ending with
  | nil => simp [dropSuffix?, dropPrefix?]
  | cons c ending =>
      rcases List.forall_mem_cons.mp ascii with ⟨first, later⟩
      ext front
      rw [dropSuffix?_eq_some_iff, Option.map_eq_some_iff]
      simp only [dropSuffix?_eq_some_iff]
      constructor
      · intro cut
        rcases exists_of_inLetters_eq first cut with ⟨before, after, rfl, rfl, rest⟩
        exact ⟨before, by rw [(inLetters_eq_iff later).mp rest.symm], rfl⟩
      · rintro ⟨before, rfl, rfl⟩
        rw [inLetters_append, inLetters_of_ascii ascii]

end AutoImport.Text
