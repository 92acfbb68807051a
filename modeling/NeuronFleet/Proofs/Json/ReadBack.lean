import NeuronFleet.Proofs.Json.Reading
import Mathlib.Tactic.SplitIfs

/-
  The reader reads back what the writer writes.

  A string literal is read back as the string, whatever its
  characters: each one the writer escapes (quotes, backslashes and
  control characters) comes back through its escape, and every other
  character through its UTF-8 bytes, which are never a quote, a
  backslash or a control byte.  A natural number written in decimal is
  read back as the number, up to the comma or brace after it, while it
  fits 64 bits.  The pieces of an object (its brace, keys, colons and
  closing brace) are read as they stand.

  Every byte of a string literal's inside is at least a space, so the
  text of such values never holds a line feed.

  Main declarations:
    * `Json.toUTF8_toList` : the bytes of a text
    * `Json.escapeChar_cases` : how the writer escapes a character
    * `Json.Reader.runs_string`, `Json.Reader.runs_value_str`
    * `Json.Reader.runs_number_nat`, `Json.Reader.runs_value_nat`
    * `Json.Reader.runs_nextKey_first`, `Json.Reader.runs_nextKey_next`
    * `Json.Reader.readWith_of_runs`
-/

namespace NeuronFleet

namespace Json

open Reader

------------------------------------------------------------
-- Text as Bytes
------------------------------------------------------------

private theorem toList_loop
    (bs : ByteArray)
    (i : Nat)
    (r : List UInt8) :
    ByteArray.toList.loop bs i r = r.reverse ++ bs.data.toList.drop i := by
  induction i, r using ByteArray.toList.loop.induct bs with
  | case1 i r hlt ih =>
    rw [ByteArray.toList.loop, if_pos hlt, ih]
    have hi : i < bs.data.toList.length := by simpa using hlt
    rw [List.drop_eq_getElem_cons hi]
    simp [ByteArray.get!, getElem!_pos bs.data i (by simpa using hlt)]
  | case2 i r hge =>
    rw [ByteArray.toList.loop, if_neg hge]
    simp [List.drop_eq_nil_of_le (by simpa using hge : bs.data.toList.length ≤ i)]

theorem bytes_toList (bs : ByteArray) : bs.toList = bs.data.toList := by
  rw [ByteArray.toList, toList_loop]
  simp

theorem size_eq_length_toList (bs : ByteArray) : bs.size = bs.toList.length := by
  simp [bytes_toList]

theorem getElem?_data
    (bs : ByteArray)
    (k : Nat) :
    bs.data[k]? = bs[k]? := by
  by_cases h : k < bs.size
  · rw [getElem?_pos bs k h, getElem?_pos bs.data k h]
    rfl
  · rw [getElem?_neg bs k h, getElem?_neg bs.data k h]

@[simp] theorem toByteArray_toList (s : String) :
    s.toByteArray.toList = s.toList.flatMap String.utf8EncodeChar := by
  rw [bytes_toList, ← String.utf8Encode_toList, List.utf8Encode]
  simp

theorem toUTF8_toList (s : String) :
    s.toUTF8.toList = s.toList.flatMap String.utf8EncodeChar := by
  rw [String.toUTF8_eq_toByteArray, toByteArray_toList]

/- Bytes that encode characters are text, and decode to them. -/
theorem fromUTF8?_flatMap (cs : List Char) :
    String.fromUTF8? ⟨(cs.flatMap String.utf8EncodeChar).toArray⟩ = some (String.ofList cs) := by
  have hBytes : (⟨(cs.flatMap String.utf8EncodeChar).toArray⟩ : ByteArray) =
      (String.ofList cs).toByteArray := by
    rw [String.toByteArray_ofList, List.utf8Encode, ← List.data_toByteArray]
  rw [hBytes]
  unfold String.fromUTF8?
  rw [dif_pos (String.ofList cs).isValidUTF8]
  rfl

theorem utf8EncodeChar_ascii
    {c : Char}
    (h : c.toNat ≤ 0x7f) :
    String.utf8EncodeChar c = [UInt8.ofNat c.toNat] := by
  unfold String.utf8EncodeChar
  dsimp only
  rw [if_pos (show c.val.toNat ≤ 0x7f from h)]
  rfl

theorem flatMap_utf8EncodeChar_of_ascii
    (cs : List Char)
    (h : ∀ c ∈ cs, c.toNat ≤ 0x7f) :
    cs.flatMap String.utf8EncodeChar = cs.map fun c => UInt8.ofNat c.toNat := by
  induction cs with
  | nil => rfl
  | cons c cs ih =>
    rw [List.flatMap_cons, utf8EncodeChar_ascii (h c (by simp)),
      ih (fun d hd => h d (by simp [hd]))]
    rfl

private theorem toNat_ofNat_mod_add
    {a m k : Nat}
    (hm : 0 < m)
    (hmk : m + k ≤ 256) :
    (UInt8.ofNat (a % m + k)).toNat = a % m + k := by
  have := Nat.mod_lt a hm
  simp only [UInt8.toNat_ofNat']
  exact Nat.mod_eq_of_lt (by omega)

/- Past ASCII, every byte of a character has its high bit set. -/
theorem le_of_mem_utf8EncodeChar
    {c : Char}
    (hc : 0x7f < c.toNat)
    {x : UInt8}
    (hx : x ∈ String.utf8EncodeChar c) :
    128 ≤ x.toNat := by
  unfold String.utf8EncodeChar at hx
  simp only [Char.toNat] at hc
  simp only at hx
  split at hx
  · omega
  repeat' split at hx
  all_goals
    simp only [List.mem_cons, List.not_mem_nil, or_false] at hx
    rcases hx with rfl | rfl | rfl | rfl <;> rw [toNat_ofNat_mod_add (by decide) (by decide)] <;>
      omega

/- The bytes of a character that is no quote, backslash or control
character are none of these either. -/
theorem plain_of_mem_utf8EncodeChar
    {c : Char}
    (hQuote : c ≠ '"')
    (hBack : c ≠ '\\')
    (hCtl : 32 ≤ c.toNat)
    {x : UInt8}
    (hx : x ∈ String.utf8EncodeChar c) :
    x ≠ 34 ∧ x ≠ 92 ∧ 32 ≤ x := by
  -- compare through the byte's value, which the ASCII case knows exactly
  have hByte : ∀ {n : Nat}, x.toNat = n → n ≠ 34 → n ≠ 92 → 32 ≤ n →
      x ≠ 34 ∧ x ≠ 92 ∧ 32 ≤ x := by
    rintro n rfl h34 h92 h32
    refine ⟨fun h => h34 (by rw [h]; rfl), fun h => h92 (by rw [h]; rfl), ?_⟩
    rw [UInt8.le_iff_toNat_le]
    exact h32
  by_cases hAscii : c.toNat ≤ 0x7f
  · rw [utf8EncodeChar_ascii hAscii, List.mem_singleton] at hx
    subst hx
    refine hByte (UInt8.toNat_ofNat_of_lt (show c.toNat < 256 by omega)) ?_ ?_ hCtl
    · exact fun h => hQuote (Char.toNat_inj.mp h)
    · exact fun h => hBack (Char.toNat_inj.mp h)
  · have hHigh := le_of_mem_utf8EncodeChar (by omega) hx
    exact hByte rfl (by omega) (by omega) (by omega)

theorem utf8_eq (n : Nat) : utf8 n = String.utf8EncodeChar (Char.ofNat n) := by
  rw [utf8, toUTF8_toList]
  simp

theorem getElem!_of_getElem?
    {b : ByteArray}
    {i : Nat}
    {x : UInt8}
    (h : b[i]? = some x) :
    b[i]! = x := by
  have hi := lt_size_of_getElem? h
  rw [getElem!_pos b i hi]
  rw [getElem?_pos b i hi] at h
  exact Option.some.inj h

------------------------------------------------------------
-- Escapes
------------------------------------------------------------

namespace Reader

section Escapes

variable {b : ByteArray} {i j : Nat}

/- The one-letter escapes, each with the character it stands for. -/
theorem runs_escape_letter
    {c : Char}
    {e : UInt8}
    (h : b[i]? = some e)
    (hLetter : (c, e) ∈ [('"', 34), ('\\', 92), ('\n', 110), ('\r', 114), ('\t', 116),
      ('\x08', 98), ('\x0c', 102)]) :
    Runs escape b i (String.utf8EncodeChar c) (i + 1) := by
  simp only [List.mem_cons, Prod.mk.injEq, List.not_mem_nil, or_false] at hLetter
  unfold escape
  refine Runs.bind (runs_next h) ?_
  rcases hLetter with ⟨rfl, rfl⟩ | ⟨rfl, rfl⟩ | ⟨rfl, rfl⟩ | ⟨rfl, rfl⟩ | ⟨rfl, rfl⟩ |
    ⟨rfl, rfl⟩ | ⟨rfl, rfl⟩ <;> exact Runs.pure _

theorem runs_hexEscape
    {d₀ d₁ d₂ d₃ : UInt8}
    {v₀ v₁ v₂ v₃ : Nat}
    (h : At b i [d₀, d₁, d₂, d₃])
    (hv : [d₀, d₁, d₂, d₃].map hexValue = [some v₀, some v₁, some v₂, some v₃]) :
    Runs hexEscape b i (((v₀ * 16 + v₁) * 16 + v₂) * 16 + v₃) (i + 4) := by
  have hSize : i + 4 ≤ b.size := lt_size_of_at (show At b i ([d₀, d₁, d₂] ++ [d₃]) from h)
  simp only [List.map_cons, List.map_nil, List.cons.injEq, and_true] at hv
  obtain ⟨hv₀, hv₁, hv₂, hv₃⟩ := hv
  unfold hexEscape
  refine Runs.bind runs_read (Runs.bind runs_get ?_)
  rw [if_pos hSize]
  refine Runs.bind (runs_set _) ?_
  rw [getElem!_of_getElem? (by simpa using h 0 (by simp)), getElem!_of_getElem? (h 1 (by simp)),
    getElem!_of_getElem? (h 2 (by simp)), getElem!_of_getElem? (h 3 (by simp))]
  simp only [List.getElem_cons_succ, List.getElem_cons_zero, hv₀, hv₁, hv₂, hv₃]
  exact Runs.pure _

/- Below the surrogates a `\u` escape is one code point. -/
theorem runs_unicodeEscape_of_lt
    {n : Nat}
    (hx : Runs hexEscape b i n j)
    (hn : n < 0xD800) :
    Runs unicodeEscape b i (utf8 n) j := by
  unfold unicodeEscape
  refine Runs.bind hx ?_
  have hLow : (0xDC00 ≤ n && n ≤ 0xDFFF) = false := by simp; omega
  have hBasic : (n < 0xD800 || n > 0xDBFF) = true := by simp; omega
  simp only [hLow, hBasic]
  exact Runs.pure _

theorem runs_escape_unicode
    {bs : List UInt8}
    (h : b[i]? = some 117)
    (hx : Runs unicodeEscape b (i + 1) bs j) :
    Runs escape b i bs j := by
  unfold escape
  exact Runs.bind (runs_next h) hx

end Escapes

theorem hexDigit_bytes
    (k : Nat)
    (hk : k < 16) :
    ∃ x, String.utf8EncodeChar (hexDigit k) = [x] ∧ hexValue x = some k ∧ 48 ≤ x := by
  have hAll : ∀ k < 16, (String.utf8EncodeChar (hexDigit k)).map
      (fun x => (hexValue x, decide (48 ≤ x))) = [(some k, true)] := by
    decide
  obtain ⟨x, hx, hv⟩ := List.map_eq_singleton_iff.mp (hAll k hk)
  simp only [Prod.mk.injEq, decide_eq_true_eq] at hv
  exact ⟨x, hx, hv⟩

end Reader

/- A control character with no letter escape is written as `\u00` and
its two hexadecimal digits, which read back as its bytes. -/
theorem controlEscape_cases
    {c : Char}
    (hc : c.toNat < 32) :
    ∃ rest, ("\\u00" ++ String.singleton (hexDigit (c.toNat / 16)) ++
        String.singleton (hexDigit (c.toNat % 16))).toUTF8.toList = 92 :: rest ∧
      (∀ x ∈ rest, 32 ≤ x) ∧
      ∀ b i, At b i rest → Runs escape b i (String.utf8EncodeChar c) (i + rest.length) := by
  obtain ⟨x₁, hx₁, hv₁, hl₁⟩ := hexDigit_bytes (c.toNat / 16) (by omega)
  obtain ⟨x₂, hx₂, hv₂, hl₂⟩ := hexDigit_bytes (c.toNat % 16) (by omega)
  refine ⟨[117, 48, 48, x₁, x₂], ?_, ?_, fun b i h => ?_⟩
  · rw [toUTF8_toList]
    simp [hx₁, hx₂]
    rfl
  · have hDigit : ∀ {x : UInt8}, 48 ≤ x → 32 ≤ x := fun h => by
      rw [UInt8.le_iff_toNat_le] at h ⊢
      exact Nat.le_trans (by decide) h
    simp only [List.mem_cons, List.not_mem_nil, or_false]
    rintro x (rfl | rfl | rfl | rfl | rfl)
    · decide
    · decide
    · decide
    · exact hDigit hl₁
    · exact hDigit hl₂
  · have hDigits : [48, 48, x₁, x₂].map hexValue =
        [some 0, some 0, some (c.toNat / 16), some (c.toNat % 16)] := by
      simp only [List.map_cons, List.map_nil, hv₁, hv₂]
      rfl
    have hRead := runs_escape_unicode (at_cons.mp h).1
      (runs_unicodeEscape_of_lt (runs_hexEscape (at_cons.mp h).2 hDigits) (by omega))
    have hValue : ((0 * 16 + 0) * 16 + c.toNat / 16) * 16 + c.toNat % 16 = c.toNat := by omega
    rw [hValue, utf8_eq, Char.ofNat_toNat] at hRead
    simpa [Nat.add_assoc] using hRead

/- How the writer escapes a character: as itself, when its bytes are
no quote, backslash or control byte, or as a backslash and an escape,
of bytes no lower than a space, that reads back the character's
bytes. -/
theorem escapeChar_cases (c : Char) :
    (escapeChar c = String.singleton c ∧
      ∀ x ∈ String.utf8EncodeChar c, x ≠ 34 ∧ x ≠ 92 ∧ 32 ≤ x) ∨
    ∃ rest, (escapeChar c).toUTF8.toList = 92 :: rest ∧ (∀ x ∈ rest, 32 ≤ x) ∧
      ∀ b i, At b i rest → Runs escape b i (String.utf8EncodeChar c) (i + rest.length) := by
  have letter : ∀ (e : UInt8) (s : String),
      (c, e) ∈ [('"', 34), ('\\', 92), ('\n', 110), ('\r', 114), ('\t', 116),
        ('\x08', 98), ('\x0c', 102)] →
      32 ≤ e → s.toUTF8.toList = [92, e] →
      ∃ rest, s.toUTF8.toList = 92 :: rest ∧ (∀ x ∈ rest, 32 ≤ x) ∧
        ∀ b i, At b i rest → Runs escape b i (String.utf8EncodeChar c) (i + rest.length) :=
    fun _ _ hLetter he hs =>
      ⟨[_], hs, by simpa using he, fun _ _ h => runs_escape_letter (at_cons.mp h).1 hLetter⟩
  unfold escapeChar
  split_ifs with hQuote hBack hLf hCr hTab hBs hFf hCtl
  · exact .inr (letter 34 _ (by simp [hQuote]) (by decide) (by rw [toUTF8_toList]; rfl))
  · exact .inr (letter 92 _ (by simp [hBack]) (by decide) (by rw [toUTF8_toList]; rfl))
  · exact .inr (letter 110 _ (by simp [hLf]) (by decide) (by rw [toUTF8_toList]; rfl))
  · exact .inr (letter 114 _ (by simp [hCr]) (by decide) (by rw [toUTF8_toList]; rfl))
  · exact .inr (letter 116 _ (by simp [hTab]) (by decide) (by rw [toUTF8_toList]; rfl))
  · exact .inr (letter 98 _ (by simp [(Char.toNat_inj.mp hBs : c = '\x08')]) (by decide)
      (by rw [toUTF8_toList]; rfl))
  · exact .inr (letter 102 _ (by simp [(Char.toNat_inj.mp hFf : c = '\x0c')]) (by decide)
      (by rw [toUTF8_toList]; rfl))
  · exact .inr (controlEscape_cases hCtl)
  · exact .inl ⟨rfl, fun x hx => plain_of_mem_utf8EncodeChar hQuote hBack (by omega) hx⟩

------------------------------------------------------------
-- Strings
------------------------------------------------------------

/- The bytes the writer gives for the characters of a string, each
escaped. -/
def escapedBytes (cs : List Char) : List UInt8 :=
  cs.flatMap fun c => (escapeChar c).toUTF8.toList

@[simp] theorem escapedBytes_nil : escapedBytes [] = [] := rfl

theorem escapedBytes_cons
    (c : Char)
    (cs : List Char) :
    escapedBytes (c :: cs) = (escapeChar c).toUTF8.toList ++ escapedBytes cs := rfl

/- The bytes of a string literal: its characters escaped, between
quotes. -/
theorem toUTF8_toList_quote (s : String) :
    (quote s).toUTF8.toList = 34 :: (escapedBytes s.toList ++ [34]) := by
  rw [quote, toUTF8_toList]
  simp [escapedBytes, List.flatMap_assoc, List.flatMap_map]
  rfl

/- No escaped byte is below a space: a string literal holds no line
feed and no carriage return. -/
theorem le_of_mem_escapedBytes
    {cs : List Char}
    {x : UInt8}
    (hx : x ∈ escapedBytes cs) :
    32 ≤ x := by
  obtain ⟨c, -, hc⟩ := List.mem_flatMap.mp hx
  rcases escapeChar_cases c with ⟨hSame, hPlain⟩ | ⟨rest, hBytes, hRest, -⟩
  case inl =>
    rw [hSame, toUTF8_toList, String.toList_singleton, List.flatMap_singleton] at hc
    exact (hPlain x hc).2.2
  case inr =>
    rw [hBytes, List.mem_cons] at hc
    rcases hc with rfl | hc
    · decide
    · exact hRest x hc

namespace Reader

section Strings

variable {b : ByteArray} {i j : Nat}

/- A string literal stands as its opening quote, then its escaped
characters and the closing quote. -/
theorem at_quote
    {s : String}
    (hAt : At b i (quote s).toUTF8.toList) :
    b[i]? = some 34 ∧ At b (i + 1) (escapedBytes s.toList ++ [34]) ∧
      i + (quote s).toUTF8.toList.length = i + 1 + (escapedBytes s.toList).length + 1 := by
  rw [toUTF8_toList_quote] at hAt ⊢
  obtain ⟨hQuote, hRest⟩ := at_cons.mp hAt
  refine ⟨hQuote, hRest, ?_⟩
  simp only [List.length_cons, List.length_append, List.length_nil]
  omega

/- Bytes that need no escape go into the string one a round. -/
theorem runs_stringFrom_plain
    {out : Array UInt8}
    {fuel : Nat}
    {s : String}
    (bs : List UInt8)
    (hPlain : ∀ x ∈ bs, x ≠ 34 ∧ x ≠ 92 ∧ 32 ≤ x)
    (hAt : At b i bs)
    (hRest : Runs (stringFrom (out ++ bs.toArray) fuel) b (i + bs.length) s j) :
    Runs (stringFrom out (fuel + bs.length)) b i s j := by
  induction bs generalizing out i with
  | nil => simpa using hRest
  | cons x xs ih =>
    obtain ⟨hx, hxs⟩ := at_cons.mp hAt
    obtain ⟨h34, h92, h32⟩ := hPlain x (by simp)
    rw [List.length_cons, ← Nat.add_assoc, stringFrom]
    refine Runs.bind runs_peek ?_
    rw [hx]
    simp only [beq_iff_eq, h34, h92, if_false, UInt8.not_lt.mpr h32]
    refine Runs.bind runs_eat ?_
    refine ih (fun y hy => hPlain y (by simp [hy])) hxs ?_
    simpa [Nat.add_assoc, Nat.add_comm 1] using hRest

/- A string's characters read back, escapes and all, up to its closing
quote, onto the bytes of the characters `done` read before.  The fuel
is enough: each round reads at least one byte. -/
theorem runs_stringFrom
    {done : List Char}
    {out : Array UInt8}
    {fuel : Nat}
    (cs : List Char)
    (hOut : out.toList = done.flatMap String.utf8EncodeChar)
    (hAt : At b i (escapedBytes cs ++ [34]))
    (hFuel : (escapedBytes cs).length < fuel) :
    Runs (stringFrom out fuel) b i (String.ofList (done ++ cs))
      (i + (escapedBytes cs).length + 1) := by
  induction cs generalizing done out i fuel with
  | nil =>
    -- the closing quote: the bytes gathered are the text read
    obtain ⟨f, rfl⟩ : ∃ f, fuel = f + 1 := ⟨fuel - 1, by simp at hFuel; omega⟩
    have hQuote : b[i]? = some 34 := by simpa using hAt 0 (by simp)
    have hText : String.fromUTF8? (ByteArray.mk out) = some (String.ofList done) := by
      show String.fromUTF8? ⟨out.toList.toArray⟩ = _
      rw [hOut, fromUTF8?_flatMap]
    rw [stringFrom]
    refine Runs.bind runs_peek ?_
    rw [hQuote]
    simp only [beq_self_eq_true, if_true, hText, List.append_nil]
    exact Runs.bind runs_eat (Runs.pure _)
  | cons c cs ih =>
    have hOut' : (out ++ (String.utf8EncodeChar c).toArray).toList =
        (done ++ [c]).flatMap String.utf8EncodeChar := by
      simp [hOut]
    rcases escapeChar_cases c with ⟨hSame, hPlain⟩ | ⟨rest, hBytes, -, hEscape⟩
    case inl =>
      -- the character stands as its own bytes
      have hSplit : escapedBytes (c :: cs) = String.utf8EncodeChar c ++ escapedBytes cs := by
        rw [escapedBytes_cons, hSame, toUTF8_toList, String.toList_singleton,
          List.flatMap_singleton]
      rw [hSplit, List.append_assoc, at_append] at hAt
      rw [hSplit, List.length_append] at hFuel
      obtain ⟨f, rfl⟩ : ∃ f, fuel = f + (String.utf8EncodeChar c).length :=
        ⟨fuel - (String.utf8EncodeChar c).length, by omega⟩
      refine runs_stringFrom_plain _ hPlain hAt.1 ?_
      have hRest := @ih _ _ _ f hOut' hAt.2 (by omega)
      simpa [hSplit, Nat.add_assoc] using hRest
    case inr =>
      -- the character stands as a backslash and an escape
      have hSplit : escapedBytes (c :: cs) = 92 :: (rest ++ escapedBytes cs) := by
        rw [escapedBytes_cons, hBytes, List.cons_append]
      rw [hSplit, List.cons_append, at_cons, List.append_assoc, at_append] at hAt
      obtain ⟨hBack, hRest, hTail⟩ := hAt
      rw [hSplit, List.length_cons, List.length_append] at hFuel
      obtain ⟨f, rfl⟩ : ∃ f, fuel = f + 1 := ⟨fuel - 1, by omega⟩
      rw [stringFrom]
      refine Runs.bind runs_peek ?_
      rw [hBack]
      simp only [show ((92 : UInt8) == 34) = false from rfl, beq_self_eq_true, if_true]
      refine Runs.bind runs_eat (Runs.bind (hEscape b (i + 1) hRest) ?_)
      have hTail' := @ih _ _ _ f hOut' hTail (by omega)
      simpa [hSplit, Nat.add_assoc, Nat.add_comm 1] using hTail'

/- A string's text after its opening quote reads back as the string. -/
theorem runs_string
    (s : String)
    (hAt : At b i (escapedBytes s.toList ++ [34])) :
    Runs string b i s (i + (escapedBytes s.toList).length + 1) := by
  have hEnd := lt_size_of_at hAt
  unfold string
  refine Runs.bind runs_read ?_
  have hEmpty : (#[] : Array UInt8).toList = ([] : List Char).flatMap String.utf8EncodeChar := rfl
  simpa using runs_stringFrom s.toList hEmpty hAt (by omega)

end Strings

------------------------------------------------------------
-- Natural Numbers
------------------------------------------------------------

theorem digit_of_mem_toDigits
    {n : Nat}
    {c : Char}
    (hc : c ∈ Nat.toDigits 10 n) :
    48 ≤ c.toNat ∧ c.toNat ≤ 57 := by
  have hDigit := Nat.isDigit_of_mem_toDigits (by decide) (by decide) hc
  simp [Char.isDigit, UInt32.le_iff_toNat_le] at hDigit
  exact hDigit

/- Only zero is written with a leading `0`. -/
theorem toDigits_head_ne_zero
    {n : Nat}
    (hn : 0 < n) :
    ∃ c cs, Nat.toDigits 10 n = c :: cs ∧ c ≠ '0' := by
  induction n using Nat.strongRecOn with
  | ind n ih =>
    by_cases hSmall : n < 10
    · exact ⟨_, [], Nat.toDigits_of_lt_base hSmall, by simp; omega⟩
    · obtain ⟨c, cs, hcs, hc⟩ := ih (n / 10) (by omega) (by omega)
      refine ⟨c, cs ++ [(n % 10).digitChar], ?_, hc⟩
      rw [Nat.toDigits_of_base_le (by decide) (by omega), hcs, List.cons_append]

theorem toUTF8_toList_toString (n : Nat) :
    (toString n).toUTF8.toList = (Nat.toDigits 10 n).map fun c => UInt8.ofNat c.toNat := by
  rw [toUTF8_toList, Nat.toString_eq_repr, Nat.toList_repr]
  exact flatMap_utf8EncodeChar_of_ascii _ fun c hc => by
    have := digit_of_mem_toDigits hc
    omega

theorem isDigit_digitByte
    {c : Char}
    (h : 48 ≤ c.toNat ∧ c.toNat ≤ 57) :
    isDigit (UInt8.ofNat c.toNat) = true := by
  have hn : (UInt8.ofNat c.toNat).toNat = c.toNat :=
    UInt8.toNat_ofNat_of_lt (show c.toNat < 256 by omega)
  simp only [isDigit, Bool.and_eq_true, decide_eq_true_eq, UInt8.le_iff_toNat_le, hn]
  exact ⟨h.1, h.2⟩

theorem toNat_digitByte_sub
    {c : Char}
    (h : 48 ≤ c.toNat ∧ c.toNat ≤ 57) :
    (UInt8.ofNat c.toNat - 48).toNat = c.toNat - 48 := by
  have hn : (UInt8.ofNat c.toNat).toNat = c.toNat :=
    UInt8.toNat_ofNat_of_lt (show c.toNat < 256 by omega)
  rw [UInt8.toNat_sub_of_le _ _ (by rw [UInt8.le_iff_toNat_le, hn]; simpa using h.1), hn]
  rfl

/- The reader's significand of digit bytes is the value of the digits. -/
theorem foldl_digits_map
    (cs : List Char)
    (h : ∀ c ∈ cs, 48 ≤ c.toNat ∧ c.toNat ≤ 57)
    (sig : Nat) :
    (cs.map fun c => UInt8.ofNat c.toNat).foldl (fun s d => s * 10 + (d - 48).toNat) sig =
      Nat.ofDigitChars 10 cs sig := by
  induction cs generalizing sig with
  | nil => simp
  | cons c cs ih =>
    rw [List.map_cons, List.foldl_cons, toNat_digitByte_sub (h c (by simp)),
      Nat.ofDigitChars_cons, Nat.mul_comm sig 10]
    exact ih (fun d hd => h d (by simp [hd])) _

theorem le_foldl_digits
    (ds : List UInt8)
    (sig : Nat) :
    sig ≤ ds.foldl (fun s d => s * 10 + (d - 48).toNat) sig := by
  induction ds generalizing sig with
  | nil => exact Nat.le_refl sig
  | cons d ds ih =>
    have hStep := ih (sig * 10 + (d - 48).toNat)
    simp only [List.foldl_cons]
    omega

/- A byte that ends a value inside a document: a comma, or a closing
bracket or brace. -/
def Closes (t : UInt8) : Prop := t = 44 ∨ t = 93 ∨ t = 125

section Numbers

variable {b : ByteArray} {i j : Nat}

/- The digits after the first go onto the significand, one a round, up
to the byte after them; the significand only grows, so it stays within
64 bits when the whole number does. -/
theorem runs_digitsFrom
    {positive : Bool}
    {sig fuel : Nat}
    {r : Number}
    {t : UInt8}
    (ds : List UInt8)
    (hDigits : ∀ d ∈ ds, isDigit d = true)
    (hAt : At b i (ds ++ [t]))
    (ht : isDigit t = false)
    (hFuel : ds.length ≤ fuel)
    (hBound : ds.foldl (fun s d => s * 10 + (d - 48).toNat) sig ≤ u64Max)
    (hRest : Runs (afterInteger positive (ds.foldl (fun s d => s * 10 + (d - 48).toNat) sig)) b
      (i + ds.length) r j) :
    Runs (digitsFrom positive sig fuel) b i r j := by
  induction ds generalizing sig i fuel with
  | nil =>
    cases fuel with
    | zero =>
      rw [digitsFrom]
      simpa using hRest
    | succ f =>
      have hEnd : b[i]? = some t := by simpa using hAt 0 (by simp)
      rw [digitsFrom]
      refine Runs.bind runs_peek ?_
      rw [hEnd]
      simp only [ht]
      simpa using hRest
  | cons d ds ih =>
    obtain ⟨hd, hds⟩ := at_cons.mp hAt
    obtain ⟨f, rfl⟩ : ∃ f, fuel = f + 1 := ⟨fuel - 1, by simp at hFuel; omega⟩
    have hBelow := le_foldl_digits ds (sig * 10 + (d - 48).toNat)
    rw [digitsFrom]
    refine Runs.bind runs_peek ?_
    rw [hd]
    simp only [hDigits d (by simp), if_true]
    rw [if_neg (by simp only [List.foldl_cons] at hBound; omega)]
    refine Runs.bind runs_eat ?_
    refine ih (fun e he => hDigits e (by simp [he])) hds (by simp at hFuel; omega) hBound ?_
    simpa [Nat.add_assoc, Nat.add_comm 1] using hRest

/- An unsigned integer ends at a comma or a closing bracket or brace. -/
theorem runs_afterInteger
    {sig : Nat}
    {t : UInt8}
    (h : b[i]? = some t)
    (ht : Closes t) :
    Runs (afterInteger true sig) b i (.unsigned sig) i := by
  unfold afterInteger
  refine Runs.bind runs_peek ?_
  rw [h]
  rcases ht with rfl | rfl | rfl <;> exact Runs.pure _

theorem runs_number_zero
    {t : UInt8}
    (hAt : At b i [48, t])
    (ht : Closes t) :
    Runs number b i (.unsigned 0) (i + 1) := by
  obtain ⟨hZero, hNext⟩ : b[i]? = some 48 ∧ b[i + 1]? = some t := by
    simpa only [at_cons, at_nil, and_true] using hAt
  have hEnd : isDigit t = false := by rcases ht with rfl | rfl | rfl <;> rfl
  unfold number
  refine Runs.bind runs_peek ?_
  rw [hZero]
  unfold integer
  refine Runs.bind (runs_next hZero) (Runs.bind runs_peek ?_)
  rw [hNext]
  simp only [hEnd]
  exact runs_afterInteger hNext ht

/- Digits with a leading digit other than `0`, up to a comma or a
closing brace. -/
theorem runs_number_digits
    {t : UInt8}
    {c : Char}
    {cs : List Char}
    (hc : c ≠ '0')
    (hDigits : ∀ d ∈ c :: cs, 48 ≤ d.toNat ∧ d.toNat ≤ 57)
    (hBound : Nat.ofDigitChars 10 (c :: cs) 0 ≤ u64Max)
    (hAt : At b i (((c :: cs).map fun c => UInt8.ofNat c.toNat) ++ [t]))
    (ht : Closes t) :
    Runs number b i (.unsigned (Nat.ofDigitChars 10 (c :: cs) 0)) (i + (cs.length + 1)) := by
  have hSize := lt_size_of_at hAt
  obtain ⟨h48, h57⟩ := hDigits c (by simp)
  have hRest : ∀ d ∈ cs, 48 ≤ d.toNat ∧ d.toNat ≤ 57 := fun d hd => hDigits d (by simp [hd])
  have hValue : (UInt8.ofNat c.toNat).toNat = c.toNat :=
    UInt8.toNat_ofNat_of_lt (show c.toNat < 256 by omega)
  -- the leading byte is neither a minus sign nor the zero digit
  have hNot : ∀ {v : UInt8}, v.toNat ≠ c.toNat → some (UInt8.ofNat c.toNat) = some v → False :=
    fun hv heq => hv (by rw [← Option.some.inj heq, hValue])
  have hNotZero : c.toNat ≠ 48 := fun h => hc (Char.toNat_inj.mp h)
  rw [List.map_cons, List.cons_append, at_cons] at hAt
  obtain ⟨hHead, hTail⟩ := hAt
  unfold number
  refine Runs.bind runs_peek ?_
  rw [hHead]
  split
  case h_1 hMinus => exact absurd hMinus (hNot (by simp; omega))
  case h_2 =>
    unfold integer
    refine Runs.bind (runs_next hHead) ?_
    split
    case h_1 hNone => cases hNone
    case h_2 hZero => exact absurd hZero (hNot (by simp; omega))
    case h_3 hSome =>
      cases Option.some.inj hSome
      simp only [isDigit_digitByte ⟨h48, h57⟩, Bool.not_true, Bool.false_eq_true, if_false]
      refine Runs.bind runs_read ?_
      have hFold : (cs.map fun c => UInt8.ofNat c.toNat).foldl
          (fun s d => s * 10 + (d - 48).toNat) (UInt8.ofNat c.toNat - 48).toNat =
            Nat.ofDigitChars 10 (c :: cs) 0 := by
        rw [foldl_digits_map cs hRest, toNat_digitByte_sub ⟨h48, h57⟩, Nat.ofDigitChars_cons]
        simp
      have hEnd : isDigit t = false := by rcases ht with rfl | rfl | rfl <;> rfl
      have hAfter : b[i + 1 + cs.length]? = some t := by simpa using hTail cs.length (by simp)
      refine runs_digitsFrom _ (fun d hd => ?_) hTail hEnd (by simp at hSize ⊢; omega)
        (hFold ▸ hBound) ?_
      · obtain ⟨e, he, rfl⟩ := List.mem_map.mp hd
        exact isDigit_digitByte (hRest e he)
      · rw [hFold]
        simpa [Nat.add_assoc, Nat.add_comm 1] using runs_afterInteger hAfter ht

/- A natural number written in decimal reads back, up to the comma or
closing brace after it, while it fits 64 bits. -/
theorem runs_number_nat
    {t : UInt8}
    (n : Nat)
    (hn : n ≤ u64Max)
    (hAt : At b i ((toString n).toUTF8.toList ++ [t]))
    (ht : Closes t) :
    Runs number b i (.unsigned n) (i + (toString n).toUTF8.toList.length) := by
  rw [toUTF8_toList_toString] at hAt ⊢
  rcases Nat.eq_zero_or_pos n with rfl | hPos
  case inl => exact runs_number_zero hAt ht
  case inr =>
    obtain ⟨c, cs, hcs, hc⟩ := toDigits_head_ne_zero hPos
    have hDigits : ∀ d ∈ c :: cs, 48 ≤ d.toNat ∧ d.toNat ≤ 57 :=
      fun d hd => digit_of_mem_toDigits (hcs ▸ hd)
    have hDecimal : Nat.ofDigitChars 10 (c :: cs) 0 = n := hcs ▸ Nat.ofDigitChars_ten_toDigits
    rw [hcs] at hAt ⊢
    simpa [hDecimal] using runs_number_digits hc hDigits (hDecimal ▸ hn) hAt ht

end Numbers

------------------------------------------------------------
-- Values
------------------------------------------------------------

section Values

variable {b : ByteArray} {i j : Nat}

theorem runs_value_str
    (d : Nat)
    (s : String)
    (hAt : At b i (quote s).toUTF8.toList) :
    Runs (value (d + 1)) b i (.str s) (i + (quote s).toUTF8.toList.length) := by
  obtain ⟨hQuote, hRest, hEnd⟩ := at_quote hAt
  rw [hEnd, value]
  refine Runs.positioned (Runs.bind (runs_peekPastBlanks_some hQuote rfl) ?_)
  exact Runs.bind runs_eat (Runs.bind (runs_string s hRest) (Runs.pure _))

/- A value that starts with a digit is read as a number. -/
theorem runs_value_number
    {x : UInt8}
    {r : Number}
    (d : Nat)
    (hx : b[i]? = some x)
    (hDigit : isDigit x = true)
    (hNumber : Runs number b i r j) :
    Runs (value (d + 1)) b i r.toJson j := by
  have hBlank : isBlank x = false := by
    simp only [isDigit, Bool.and_eq_true, decide_eq_true_eq] at hDigit
    simp only [isBlank, Bool.or_eq_false_iff, beq_eq_false_iff_ne]
    refine ⟨⟨⟨?_, ?_⟩, ?_⟩, ?_⟩ <;> rintro rfl <;> simp at hDigit
  rw [value]
  refine Runs.positioned (Runs.bind (runs_peekPastBlanks hx (by simpa using hBlank)) ?_)
  split
  case h_1 heq => cases heq
  case h_8 heq =>
    cases heq
    rw [hDigit, Bool.or_true, if_pos rfl]
    exact Runs.bind hNumber (Runs.pure _)
  -- the other branches start with a byte that is not a digit
  all_goals
    rename_i heq
    cases heq
    exact absurd hDigit (by decide)

theorem runs_value_nat
    {t : UInt8}
    (d n : Nat)
    (hn : n ≤ u64Max)
    (hAt : At b i ((toString n).toUTF8.toList ++ [t]))
    (ht : Closes t) :
    Runs (value (d + 1)) b i (.int n) (i + (toString n).toUTF8.toList.length) := by
  have hNumber := runs_number_nat n hn hAt ht
  obtain ⟨c, cs, hcs⟩ : ∃ c cs, Nat.toDigits 10 n = c :: cs :=
    List.exists_cons_of_ne_nil Nat.toDigits_ne_nil
  rw [toUTF8_toList_toString, hcs, List.map_cons, List.cons_append, at_cons] at hAt
  exact runs_value_number d hAt.1
    (isDigit_digitByte (digit_of_mem_toDigits (hcs ▸ List.mem_cons_self))) hNumber

end Values

end Reader

/- Values written as one token and read back as they were: strings,
and natural numbers that fit 64 bits. -/
inductive Scalar : Json → Prop
  | str (s : String) : Scalar (.str s)
  | nat (n : Nat) (h : n ≤ u64Max) : Scalar (.int n)

/- A scalar's text holds no byte below a space. -/
theorem le_of_mem_write
    {v : Json}
    (hv : Scalar v)
    {x : UInt8}
    (hx : x ∈ (write v).toUTF8.toList) :
    32 ≤ x := by
  cases hv with
  | str s =>
    rw [write, toUTF8_toList_quote, List.mem_cons, List.mem_append, List.mem_singleton] at hx
    rcases hx with rfl | hx | rfl
    · decide
    · exact le_of_mem_escapedBytes hx
    · decide
  | nat n _ =>
    rw [show write (.int n) = toString n from rfl, toUTF8_toList_toString] at hx
    obtain ⟨c, hc, rfl⟩ := List.mem_map.mp hx
    have hDigit := Reader.digit_of_mem_toDigits hc
    have hn : (UInt8.ofNat c.toNat).toNat = c.toNat :=
      UInt8.toNat_ofNat_of_lt (show c.toNat < 256 by omega)
    rw [UInt8.le_iff_toNat_le, hn]
    exact Nat.le_trans (by decide) hDigit.1

namespace Reader

section Scalars

variable {b : ByteArray} {i : Nat}

/- A scalar reads back, up to the comma or closing brace after it. -/
theorem runs_value_scalar
    {v : Json}
    {t : UInt8}
    (d : Nat)
    (hv : Scalar v)
    (hAt : At b i ((write v).toUTF8.toList ++ [t]))
    (ht : Closes t) :
    Runs (value (d + 1)) b i v (i + (write v).toUTF8.toList.length) := by
  cases hv with
  | str s => exact runs_value_str d s (at_append.mp hAt).1
  | nat n hn => exact runs_value_nat d n hn hAt ht

end Scalars

------------------------------------------------------------
-- Objects
------------------------------------------------------------

section Objects

variable {b : ByteArray} {i j : Nat}

/- The first key of an object, right after its brace. -/
theorem runs_nextKey_first
    (k : String)
    (hAt : At b i (quote k).toUTF8.toList) :
    Runs (nextKey true) b i (some k) (i + (quote k).toUTF8.toList.length) := by
  obtain ⟨hQuote, hRest, hEnd⟩ := at_quote hAt
  rw [hEnd]
  unfold nextKey
  refine Runs.bind (runs_peekPastBlanks_some hQuote rfl) ?_
  exact Runs.bind (Runs.pure _)
    (Runs.bind runs_eat (Runs.bind (runs_string k hRest) (Runs.pure _)))

/- A key after the comma that ends the member before it. -/
theorem runs_nextKey_next
    (k : String)
    (hAt : At b i (44 :: (quote k).toUTF8.toList)) :
    Runs (nextKey false) b i (some k) (i + 1 + (quote k).toUTF8.toList.length) := by
  obtain ⟨hComma, hKey⟩ := at_cons.mp hAt
  obtain ⟨hQuote, hRest, hEnd⟩ := at_quote hKey
  rw [hEnd]
  unfold nextKey
  refine Runs.bind (runs_peekPastBlanks_some hComma rfl) ?_
  refine Runs.bind runs_eat (Runs.bind (runs_peekPastBlanks_some hQuote rfl) ?_)
  exact Runs.bind runs_eat (Runs.bind (runs_string k hRest) (Runs.pure _))

/- No key at the closing brace. -/
theorem runs_nextKey_close
    (first : Bool)
    (h : b[i]? = some 125) :
    Runs (nextKey first) b i none i := by
  unfold nextKey
  exact Runs.bind (runs_peekPastBlanks_some h rfl) (Runs.pure _)

theorem runs_colon (h : b[i]? = some 58) : Runs colon b i () (i + 1) := by
  unfold colon
  exact Runs.bind (runs_peekPastBlanks_some h rfl) runs_eat

theorem runs_closeObject (h : b[i]? = some 125) : Runs closeObject b i () (i + 1) := by
  unfold closeObject
  exact Runs.bind (runs_peekPastBlanks_some h rfl) runs_eat

theorem runs_enter
    {remaining : Nat}
    (h : 0 < remaining) :
    Runs (enter remaining) b i () (i + 1) := by
  unfold enter
  rw [if_neg (Nat.pos_iff_ne_zero.mp h)]
  exact Runs.bind (Runs.pure _) runs_eat

theorem runs_finish (h : b[i]? = none) : Runs finish b i () i := by
  unfold finish
  exact Runs.bind (runs_peekPastBlanks h (by simp)) (Runs.pure _)

/- The bytes of a whole text stand in it from its start. -/
theorem at_toList (bs : ByteArray) : At bs 0 bs.toList := by
  intro k hk
  have hEq : bs.toList[k]? = bs[k]? := by
    rw [bytes_toList, Array.getElem?_toList, getElem?_data]
  rw [Nat.zero_add, ← hEq, List.getElem?_eq_getElem hk]

end Objects

end Reader

------------------------------------------------------------
-- Objects as Bytes
------------------------------------------------------------

theorem writeMembers_cons
    (m : String × Json)
    (ms : List (String × Json)) :
    writeMembers (m :: ms) = quote m.1 ++ ":" ++ write m.2 ++
      String.join (ms.map fun m => "," ++ quote m.1 ++ ":" ++ write m.2) := by
  induction ms generalizing m with
  | nil => simp [writeMembers]
  | cons m' ms ih =>
    rw [writeMembers, ih]
    · simp [String.append_assoc]
    · simp

/- The bytes of an object's members after its first, each after a
comma. -/
def memberBytes (ms : List (String × Json)) : List UInt8 :=
  ms.flatMap fun m => 44 :: ((quote m.1).toUTF8.toList ++ 58 :: (write m.2).toUTF8.toList)

theorem memberBytes_cons
    (m : String × Json)
    (ms : List (String × Json)) :
    memberBytes (m :: ms) =
      44 :: ((quote m.1).toUTF8.toList ++ 58 :: (write m.2).toUTF8.toList) ++ memberBytes ms :=
  rfl

/- The bytes of an object: its brace, its first member, the others
after commas, and the closing brace. -/
theorem toUTF8_toList_obj
    (m : String × Json)
    (ms : List (String × Json)) :
    (write (.obj (m :: ms))).toUTF8.toList =
      123 :: ((quote m.1).toUTF8.toList ++ [58] ++ (write m.2).toUTF8.toList ++
        (memberBytes ms ++ [125])) := by
  rw [write, writeMembers_cons, toUTF8_toList]
  simp [memberBytes, List.flatMap_assoc, List.flatMap_map]
  rfl

theorem length_le_memberBytes (ms : List (String × Json)) :
    ms.length ≤ (memberBytes ms).length := by
  induction ms with
  | nil => exact Nat.le_refl 0
  | cons m ms ih =>
    rw [memberBytes_cons, List.length_append, List.length_cons, List.length_cons]
    omega

/- After a member's value comes a comma or the closing brace. -/
theorem memberBytes_terminator (ms : List (String × Json)) :
    ∃ t rest, memberBytes ms ++ [125] = t :: rest ∧ Reader.Closes t := by
  cases ms with
  | nil => exact ⟨125, [], rfl, .inr (.inr rfl)⟩
  | cons m ms => exact ⟨44, _, rfl, .inl rfl⟩

/- An object of scalars holds no byte below a space. -/
theorem le_of_mem_write_obj
    {m : String × Json}
    {ms : List (String × Json)}
    (hms : ∀ m' ∈ m :: ms, Scalar m'.2)
    {x : UInt8}
    (hx : x ∈ (write (.obj (m :: ms))).toUTF8.toList) :
    32 ≤ x := by
  -- keys are strings, values scalars, the rest punctuation
  have hKey : ∀ k : String, ∀ y ∈ (quote k).toUTF8.toList, 32 ≤ y :=
    fun k y hy => le_of_mem_write (.str k) hy
  rw [toUTF8_toList_obj] at hx
  simp only [List.mem_cons, List.mem_append, List.not_mem_nil, or_false] at hx
  rcases hx with rfl | ((hx | rfl) | hx) | hx | rfl
  · decide
  · exact hKey m.1 x hx
  · decide
  · exact le_of_mem_write (hms m (by simp)) hx
  · obtain ⟨m', hm', hx⟩ := List.mem_flatMap.mp hx
    simp only [List.mem_cons, List.mem_append] at hx
    rcases hx with rfl | hx | rfl | hx
    · decide
    · exact hKey m'.1 x hx
    · decide
    · exact le_of_mem_write (hms m' (by simp [hm'])) hx
  · decide

/- A step that reads a whole text gives the result of reading it. -/
theorem readWith_of_runs
    {step : Reader α}
    {text : String}
    {a : α}
    (h : Runs step text.toUTF8 0 a text.toUTF8.size) :
    readWith step text = .ok a := by
  have hEnd : text.toUTF8[text.toUTF8.size]? = none := getElem?_neg _ _ (Nat.lt_irrefl _)
  have hRun : Runs (do let v ← step; finish; return v) text.toUTF8 0 a text.toUTF8.size :=
    Runs.bind h (Runs.bind (runs_finish hEnd) (Runs.pure a))
  unfold Runs outcome at hRun
  unfold readWith
  rw [hRun]
  rfl

end Json

end NeuronFleet
