import NeuronFleet.Proofs.Json.ReadBack
import Mathlib.Data.List.Forall2

/-
  Reading against a schema reads back what the writer writes.

  `Recovers x v` says that the reading step `x` reads the value `v`
  back from its text wherever the text stands, up to the comma or
  closing bracket or brace after it.  Against their shapes, strings
  recover themselves and natural numbers recover themselves while they
  fit the shape's bound.  Arrays recover against a list shape when
  their items recover against the item shape, and objects against a
  record shape when their members are the record's fields, in order,
  each recovering against its field's shape; neither reads a byte past
  its closing bracket.  A whole text that recovers a value reads as it.

  Main declarations:
    * `Json.Reader.Recovers`
    * `Json.Reader.recovers_unsigned`, `Json.Reader.recovers_string`
    * `Json.Reader.runs_list`, `Json.Reader.runs_record`, `Json.Reader.recovers_list`
    * `Json.readBytesAs_of_runs`
-/

namespace NeuronFleet

namespace Json

namespace Reader

/- `x` reads `v` back from its text, wherever the text stands and
whichever byte that ends a value follows it. -/
def Recovers
    (x : Reader Json)
    (v : Json) : Prop :=
  ∀ {b : ByteArray} {i : Nat} {t : UInt8}, At b i ((write v).toUTF8.toList ++ [t]) → Closes t →
    Runs x b i v (i + (write v).toUTF8.toList.length)

/- A value's text starts with a byte that is no blank and no closing bracket. -/
def Leads (v : Json) : Prop :=
  ∃ c rest, (write v).toUTF8.toList = c :: rest ∧ isBlank c = false ∧ c ≠ 93

theorem isBlank_of_isDigit
    {x : UInt8}
    (h : isDigit x = true) :
    isBlank x = false := by
  simp only [isDigit, Bool.and_eq_true, decide_eq_true_eq] at h
  simp only [isBlank, Bool.or_eq_false_iff, beq_eq_false_iff_ne]
  refine ⟨⟨⟨?_, ?_⟩, ?_⟩, ?_⟩ <;> rintro rfl <;> simp at h

theorem typed_succ
    (d : Nat)
    (s : Schema) :
    typed (d + 1) s = typedStep d (typed d) s :=
  rfl

------------------------------------------------------------
-- Scalars
------------------------------------------------------------

section Scalars

variable {d : Nat}

/- A natural number within the bound of an unsigned shape. -/
theorem recovers_unsigned
    {name : String}
    {max n : Nat}
    (hn : n ≤ max)
    (hMax : max ≤ u64Max) :
    Recovers (typed (d + 1) (.unsigned name max)) (.int n) := by
  intro b i t hAt ht
  have hWrite : write (.int n) = toString n := rfl
  rw [hWrite] at hAt ⊢
  have hNumber := runs_number_nat n (Nat.le_trans hn hMax) hAt ht
  obtain ⟨c, cs, hcs⟩ : ∃ c cs, Nat.toDigits 10 n = c :: cs :=
    List.exists_cons_of_ne_nil Nat.toDigits_ne_nil
  rw [toUTF8_toList_toString, hcs, List.map_cons, List.cons_append, at_cons] at hAt
  have hDigit : isDigit (UInt8.ofNat c.toNat) = true :=
    isDigit_digitByte (digit_of_mem_toDigits (hcs ▸ List.mem_cons_self))
  rw [typed_succ]
  unfold typedStep
  refine Runs.positioned (Runs.bind (runs_peekPastBlanks_some hAt.1 (isBlank_of_isDigit hDigit)) ?_)
  simp only [hDigit, Bool.or_true, if_true]
  refine Runs.bind hNumber ?_
  simp only [if_pos hn]
  exact Runs.pure _

/- A string, whatever its characters. -/
theorem recovers_string (s : String) : Recovers (typed (d + 1) .string) (.str s) := by
  intro b i t hAt _
  have hWrite : write (.str s) = quote s := rfl
  rw [hWrite] at hAt ⊢
  obtain ⟨hQuote, hRest, hEnd⟩ := at_quote (at_append.mp hAt).1
  rw [hEnd, typed_succ]
  unfold typedStep
  refine Runs.positioned (Runs.bind (runs_peekPastBlanks_some hQuote rfl) ?_)
  exact Runs.bind runs_eat (Runs.bind (runs_string s hRest) (Runs.pure _))

theorem leads_str (s : String) : Leads (.str s) :=
  ⟨34, _, by rw [show write (.str s) = quote s from rfl, toUTF8_toList_quote], rfl, by decide⟩

end Scalars

end Reader

------------------------------------------------------------
-- Arrays as Bytes
------------------------------------------------------------

theorem writeItems_cons
    (x : Json)
    (xs : List Json) :
    writeItems (x :: xs) = write x ++ String.join (xs.map fun y => "," ++ write y) := by
  induction xs generalizing x with
  | nil => simp [writeItems]
  | cons y xs ih =>
    rw [writeItems, ih]
    · simp [String.append_assoc]
    · simp

/- The bytes of an array's items after its first, each after a comma. -/
def itemBytes (xs : List Json) : List UInt8 :=
  xs.flatMap fun x => 44 :: (write x).toUTF8.toList

theorem itemBytes_cons
    (x : Json)
    (xs : List Json) :
    itemBytes (x :: xs) = 44 :: ((write x).toUTF8.toList ++ itemBytes xs) :=
  rfl

theorem toUTF8_toList_arr_nil : (write (.arr [])).toUTF8.toList = [91, 93] := by
  rw [write, toUTF8_toList]
  simp [writeItems]
  rfl

/- The bytes of an array: its bracket, its first item, the others after
commas, and the closing bracket. -/
theorem toUTF8_toList_arr
    (x : Json)
    (xs : List Json) :
    (write (.arr (x :: xs))).toUTF8.toList =
      91 :: ((write x).toUTF8.toList ++ (itemBytes xs ++ [93])) := by
  rw [write, writeItems_cons, toUTF8_toList]
  simp [itemBytes, List.flatMap_assoc, List.flatMap_map]
  rfl

theorem length_le_itemBytes (xs : List Json) : xs.length ≤ (itemBytes xs).length := by
  induction xs with
  | nil => exact Nat.le_refl 0
  | cons x xs ih =>
    simp only [itemBytes_cons, List.length_cons, List.length_append]
    omega

/- After an item comes a comma or the closing bracket. -/
theorem itemBytes_terminator (xs : List Json) :
    ∃ t rest, itemBytes xs ++ [93] = t :: rest ∧ Reader.Closes t := by
  cases xs with
  | nil => exact ⟨93, [], rfl, .inr (.inl rfl)⟩
  | cons x xs => exact ⟨44, _, rfl, .inl rfl⟩

namespace Reader

------------------------------------------------------------
-- Arrays
------------------------------------------------------------

section Lists

variable {b : ByteArray} {i : Nat} {inner : Schema → Reader Json} {item : Schema}

/- No item at the closing bracket. -/
theorem runs_nextItem_close
    (first : Bool)
    (h : b[i]? = some 93) :
    Runs (nextItem first) b i false i := by
  unfold nextItem
  exact Runs.bind (runs_peekPastBlanks_some h rfl) (Runs.pure _)

/- The first item, right after the bracket. -/
theorem runs_nextItem_first
    {c : UInt8}
    (h : b[i]? = some c)
    (hBlank : isBlank c = false)
    (hClose : c ≠ 93) :
    Runs (nextItem true) b i true i := by
  unfold nextItem
  refine Runs.bind (runs_peekPastBlanks_some h hBlank) ?_
  split
  case h_1 hNone => cases hNone
  case h_2 hBracket => exact absurd (Option.some.inj hBracket) hClose
  case h_3 => exact Runs.pure _

/- An item after the comma that ends the one before it. -/
theorem runs_nextItem_next
    {c : UInt8}
    (hComma : b[i]? = some 44)
    (h : b[i + 1]? = some c)
    (hBlank : isBlank c = false)
    (hClose : c ≠ 93) :
    Runs (nextItem false) b i true (i + 1) := by
  unfold nextItem
  refine Runs.bind (runs_peekPastBlanks_some hComma rfl) ?_
  simp only [Bool.false_eq_true, if_false]
  refine Runs.bind runs_eat (Runs.bind (runs_peekPastBlanks_some h hBlank) ?_)
  split
  case h_1 hBracket => exact absurd (Option.some.inj hBracket) hClose
  case h_2 => exact Runs.pure _
  case h_3 hNone => cases hNone

theorem runs_closeList (h : b[i]? = some 93) : Runs closeList b i () (i + 1) := by
  unfold closeList
  exact Runs.bind (runs_peekPastBlanks_some h rfl) runs_eat

/- The items after the first, read one a round up to the closing
bracket, each after its comma. -/
theorem runs_listItems
    {acc : Array Json}
    {fuel : Nat}
    (xs : List Json)
    (hItems : ∀ x ∈ xs, Recovers (inner item) x ∧ Leads x)
    (hAt : At b i (itemBytes xs ++ [93]))
    (hFuel : xs.length < fuel) :
    Runs (listItems inner item fuel acc false) b i (acc ++ xs.toArray) (i + (itemBytes xs).length) := by
  induction xs generalizing acc i fuel with
  | nil =>
    obtain ⟨f, rfl⟩ : ∃ f, fuel = f + 1 := ⟨fuel - 1, by simp at hFuel; omega⟩
    have hClose : b[i]? = some 93 := by simpa [itemBytes] using hAt 0 (by simp)
    rw [listItems]
    simpa [itemBytes] using Runs.bind (runs_nextItem_close false hClose) (Runs.pure acc)
  | cons x xs ih =>
    obtain ⟨hRecovers, c, rest, hLead, hBlank, hClose⟩ := hItems x (by simp)
    obtain ⟨f, rfl⟩ : ∃ f, fuel = f + 1 := ⟨fuel - 1, by simp at hFuel; omega⟩
    obtain ⟨t, tail, hTail, ht⟩ := itemBytes_terminator xs
    rw [itemBytes_cons, List.cons_append, List.append_assoc, at_cons, at_append] at hAt
    obtain ⟨hComma, hItem, hNext⟩ := hAt
    have hHead : b[i + 1]? = some c := (at_cons.mp (hLead ▸ hItem)).1
    have hItemAt : At b (i + 1) ((write x).toUTF8.toList ++ [t]) :=
      at_append.mpr ⟨hItem, by rw [hTail] at hNext; exact at_cons.mpr ⟨(at_cons.mp hNext).1, at_nil⟩⟩
    have hEnd : i + (itemBytes (x :: xs)).length =
        i + 1 + (write x).toUTF8.toList.length + (itemBytes xs).length := by
      simp only [itemBytes_cons, List.length_cons, List.length_append]
      omega
    rw [listItems, hEnd]
    refine Runs.bind (runs_nextItem_next hComma hHead hBlank hClose) ?_
    simp only [Bool.not_true, Bool.false_eq_true, if_false]
    refine Runs.bind (hRecovers hItemAt ht) ?_
    simpa using @ih _ (acc.push x) _ (fun y hy => hItems y (by simp [hy])) hNext
      (by simp at hFuel; omega)

/- An array whose items recover against the item shape, read whole;
nothing past its closing bracket is read. -/
theorem runs_list
    {d : Nat}
    (xs : List Json)
    (hItems : ∀ x ∈ xs, Recovers (typed d item) x ∧ Leads x)
    (hDepth : 0 < d)
    (hAt : At b i (write (.arr xs)).toUTF8.toList) :
    Runs (typed (d + 1) (.list item)) b i (.arr xs) (i + (write (.arr xs)).toUTF8.toList.length) := by
  rw [typed_succ]
  unfold typedStep
  cases xs with
  | nil =>
    rw [toUTF8_toList_arr_nil] at hAt ⊢
    obtain ⟨hOpen, hClose⟩ : b[i]? = some 91 ∧ b[i + 1]? = some 93 := by
      simpa only [at_cons, at_nil, and_true] using hAt
    refine Runs.positioned (Runs.bind (runs_peekPastBlanks_some hOpen rfl) ?_)
    refine Runs.bind (runs_enter hDepth) (Runs.bind runs_read ?_)
    obtain ⟨f, hf⟩ : ∃ f, b.size = f + 1 := ⟨b.size - 1, by have := lt_size_of_getElem? hClose; omega⟩
    rw [hf, listItems]
    refine Runs.bind (Runs.bind (runs_nextItem_close true hClose) (Runs.pure _)) ?_
    refine Runs.bind (runs_closeList hClose) (Runs.pure _)
  | cons x xs =>
    obtain ⟨hRecovers, c, rest, hLead, hBlank, hNotClose⟩ := hItems x (by simp)
    obtain ⟨t, tail, hTail, ht⟩ := itemBytes_terminator xs
    rw [toUTF8_toList_arr] at hAt ⊢
    obtain ⟨hOpen, hInside⟩ := at_cons.mp hAt
    obtain ⟨hItem, hNext⟩ := at_append.mp hInside
    have hHead : b[i + 1]? = some c := (at_cons.mp (hLead ▸ hItem)).1
    have hItemAt : At b (i + 1) ((write x).toUTF8.toList ++ [t]) :=
      at_append.mpr ⟨hItem, by rw [hTail] at hNext; exact at_cons.mpr ⟨(at_cons.mp hNext).1, at_nil⟩⟩
    have hSize := lt_size_of_at hNext
    have hFuel := length_le_itemBytes xs
    have hLength : 0 < (write x).toUTF8.toList.length := by rw [hLead]; simp
    have hClose : b[i + 1 + (write x).toUTF8.toList.length + (itemBytes xs).length]? = some 93 := by
      simpa using (at_append.mp hNext).2 0 (by simp)
    obtain ⟨f, hf⟩ : ∃ f, b.size = f + 1 := ⟨b.size - 1, by omega⟩
    -- the first item, then the others after their commas
    have hRest : Runs (listItems (typed d) item f (#[].push x) false) b
        (i + 1 + (write x).toUTF8.toList.length) (#[].push x ++ xs.toArray)
        (i + 1 + (write x).toUTF8.toList.length + (itemBytes xs).length) :=
      runs_listItems xs (fun y hy => hItems y (by simp [hy])) hNext (by omega)
    have hAll : Runs (listItems (typed d) item (f + 1) #[] true) b (i + 1) (x :: xs).toArray
        (i + 1 + (write x).toUTF8.toList.length + (itemBytes xs).length) := by
      rw [listItems]
      refine Runs.bind (runs_nextItem_first hHead hBlank hNotClose) ?_
      simp only [Bool.not_true, Bool.false_eq_true, if_false]
      exact Runs.bind (hRecovers hItemAt ht) (by simpa using hRest)
    have hEnd : i + (91 :: ((write x).toUTF8.toList ++ (itemBytes xs ++ [93]))).length =
        i + 1 + (write x).toUTF8.toList.length + (itemBytes xs).length + 1 := by
      simp only [List.length_cons, List.length_append, List.length_nil]
      omega
    refine Runs.positioned (Runs.bind (runs_peekPastBlanks_some hOpen rfl) ?_)
    refine Runs.bind (runs_enter hDepth) (Runs.bind runs_read ?_)
    rw [hf, hEnd]
    refine Runs.bind hAll (Runs.bind (runs_closeList hClose) ?_)
    simpa using Runs.pure (b := b) (i := i + 1 + (write x).toUTF8.toList.length +
      (itemBytes xs).length + 1) (Json.arr (x :: xs))

end Lists

end Reader

------------------------------------------------------------
-- Records
------------------------------------------------------------

/- What the members read so far leave of a record's `n` fields: the
value of each field read, nothing yet for the others. -/
def gotAfter
    (n : Nat)
    (read : List (String × Json)) :
    Array (Option Json) :=
  (read.map (fun m : String × Json => some m.2) ++ List.replicate (n - read.length) none).toArray

theorem gotAfter_nil (fields : List (String × Schema × Option Json)) :
    (fields.toArray.map fun _ => (none : Option Json)) = gotAfter fields.length [] := by
  unfold gotAfter
  simp

theorem gotAfter_next
    {n : Nat}
    {pre : List (String × Json)}
    (h : pre.length < n) :
    (gotAfter n pre)[pre.length]! = none := by
  unfold gotAfter
  obtain ⟨k, hk⟩ : ∃ k, n - pre.length = k + 1 := ⟨n - pre.length - 1, by omega⟩
  simp [hk, List.replicate_succ]

theorem gotAfter_set
    {n : Nat}
    {pre : List (String × Json)}
    (m : String × Json)
    (h : pre.length < n) :
    (gotAfter n pre).set! pre.length (some m.2) = gotAfter n (pre ++ [m]) := by
  unfold gotAfter
  obtain ⟨k, hk⟩ : ∃ k, n - pre.length = k + 1 := ⟨n - pre.length - 1, by omega⟩
  have hk' : n - (pre.length + 1) = k := by omega
  simp [Array.set!_eq_setIfInBounds, hk, hk', List.set_append_right, List.replicate_succ]

theorem gotAfter_all
    {ms : List (String × Json)}
    {k : Nat}
    (h : k < ms.length) :
    (gotAfter ms.length ms)[k]! = some (ms[k]).2 := by
  unfold gotAfter
  simp [h]

/- A key names the field after those before it, names being distinct. -/
theorem findIdx?_field
    {fpre fpost : List (String × Schema × Option Json)}
    {f : String × Schema × Option Json}
    (hNodup : ((fpre ++ f :: fpost).map Prod.fst).Nodup) :
    (fpre ++ f :: fpost).findIdx? (·.1 == f.1) = some fpre.length := by
  have hFresh : f.1 ∉ fpre.map Prod.fst := by
    rw [List.map_append, List.map_cons, List.nodup_append] at hNodup
    exact fun hf => hNodup.2.2 _ hf _ List.mem_cons_self rfl
  have hNone : fpre.findIdx? (·.1 == f.1) = none := by
    rw [List.findIdx?_eq_none_iff]
    intro g hg
    simpa using fun hSame => hFresh (List.mem_map.mpr ⟨g, hg, hSame⟩)
  simp [List.findIdx?_append, List.findIdx?_cons, hNone]

theorem getElem!_field
    (fpre fpost : List (String × Schema × Option Json))
    (f : String × Schema × Option Json) :
    (fpre ++ f :: fpost)[fpre.length]! = f := by
  simp

namespace Reader

section Records

variable {b : ByteArray} {i : Nat} {inner : Schema → Reader Json}
  {fields : List (String × Schema × Option Json)}

/- A member's field, the member the field's name says: the member read
against it recovers against its shape. -/
def FieldReads
    (inner : Schema → Reader Json)
    (f : String × Schema × Option Json)
    (m : String × Json) : Prop :=
  m.1 = f.1 ∧ Recovers (inner f.2.1) m.2

/- One member read against its field: its key names the field, which
has no value yet, so the value is read with the field's shape and
taken as the field's. -/
theorem runs_recordMembers_cons
    {first : Bool}
    {fuel j k e : Nat}
    {m : String × Json}
    {f : String × Schema × Option Json}
    {r : Array (Option Json) × Except ReadError Unit}
    (pre : List (String × Json))
    (fpre fpost : List (String × Schema × Option Json))
    (hFields : fields = fpre ++ f :: fpost)
    (hPre : fpre.length = pre.length)
    (hName : m.1 = f.1)
    (hNodup : (fields.map Prod.fst).Nodup)
    (hKey : Runs (nextKey first) b i (some m.1) j)
    (hColon : b[j]? = some 58)
    (hValue : Runs (inner f.2.1) b (j + 1) m.2 k)
    (hRest : Runs (recordMembers inner fields fuel (gotAfter fields.length (pre ++ [m])) false) b
      k r e) :
    Runs (recordMembers inner fields (fuel + 1) (gotAfter fields.length pre) first) b i r e := by
  have hLt : pre.length < fields.length := by simp [hFields, ← hPre]
  have hFind : fields.findIdx? (·.1 == m.1) = some pre.length := by
    rw [hName, hFields, findIdx?_field (hFields ▸ hNodup), hPre]
  have hField : fields[pre.length]! = f := by
    rw [hFields, ← hPre, getElem!_field]
  rw [recordMembers]
  refine Runs.bind hKey ?_
  simp only [hFind, gotAfter_next hLt, Option.isSome_none, Bool.false_eq_true, if_false]
  refine Runs.bind (runs_colon hColon) ?_
  rw [hField]
  refine Runs.bind hValue ?_
  rwa [gotAfter_set m hLt]

/- The members after the first, read one a round up to the closing
brace: the fields before them taken, each member names the next field
and recovers against its shape.  The induction is on the members still
to read; the fields split as those read and those to read. -/
theorem runs_recordMembers
    {fuel : Nat}
    (pre post : List (String × Json))
    (fpre fpost : List (String × Schema × Option Json))
    (hFields : fields = fpre ++ fpost)
    (hPre : fpre.length = pre.length)
    (hPost : List.Forall₂ (FieldReads inner) fpost post)
    (hNodup : (fields.map Prod.fst).Nodup)
    (hAt : At b i (memberBytes post ++ [125]))
    (hFuel : post.length < fuel) :
    Runs (recordMembers inner fields fuel (gotAfter fields.length pre) false) b i
      (gotAfter fields.length (pre ++ post), .ok ()) (i + (memberBytes post).length) := by
  induction post generalizing pre fpre fpost i fuel with
  | nil =>
    obtain ⟨f, rfl⟩ : ∃ f, fuel = f + 1 := ⟨fuel - 1, by simp at hFuel; omega⟩
    have hClose : b[i]? = some 125 := by simpa [memberBytes] using hAt 0 (by simp)
    rw [recordMembers, List.append_nil]
    have hNone : (memberBytes []).length = 0 := rfl
    rw [hNone, Nat.add_zero]
    exact Runs.bind (runs_nextKey_close false hClose) (Runs.pure _)
  | cons m post ih =>
    obtain ⟨f, fpost', rfl, ⟨hName, hRecovers⟩, hPost'⟩ : ∃ f fpost', fpost = f :: fpost' ∧
        FieldReads inner f m ∧ List.Forall₂ (FieldReads inner) fpost' post := by
      cases hPost with
      | cons hHead hTail => exact ⟨_, _, rfl, hHead, hTail⟩
    obtain ⟨g, rfl⟩ : ∃ g, fuel = g + 1 := ⟨fuel - 1, by simp at hFuel; omega⟩
    obtain ⟨t, rest, hRest, ht⟩ := memberBytes_terminator post
    have hSplit : memberBytes (m :: post) ++ [125] =
        (44 :: (quote m.1).toUTF8.toList) ++ [58] ++ (write m.2).toUTF8.toList ++
          (memberBytes post ++ [125]) := by
      rw [memberBytes_cons]
      simp
    rw [hSplit, at_append, at_append, at_append] at hAt
    obtain ⟨⟨⟨hKeyAt, hColonAt⟩, hValueAt⟩, hTailAt⟩ := hAt
    simp only [List.length_append, List.length_cons, List.length_nil] at hColonAt hValueAt hTailAt
    have hColon : b[i + 1 + (quote m.1).toUTF8.toList.length]? = some 58 := by
      simpa [Nat.add_assoc, Nat.add_comm 1] using hColonAt 0 (by simp)
    -- the value ends where the comma or brace after it stands
    have hValue : At b (i + 1 + (quote m.1).toUTF8.toList.length + 1)
        ((write m.2).toUTF8.toList ++ [t]) := by
      rw [hRest] at hTailAt
      refine at_append.mpr ⟨by simpa [Nat.add_assoc, Nat.add_comm 1] using hValueAt, ?_⟩
      refine at_cons.mpr ⟨?_, at_nil⟩
      simpa [Nat.add_assoc, Nat.add_comm 1] using (at_cons.mp hTailAt).1
    have hEnd : i + (memberBytes (m :: post)).length =
        i + 1 + (quote m.1).toUTF8.toList.length + 1 + (write m.2).toUTF8.toList.length +
          (memberBytes post).length := by
      simp only [memberBytes_cons, List.length_append, List.length_cons]
      omega
    rw [hEnd]
    refine runs_recordMembers_cons _ _ fpost' hFields hPre hName hNodup
      (runs_nextKey_next m.1 hKeyAt) hColon (hRecovers hValue ht) ?_
    simpa using ih (pre ++ [m]) (fpre ++ [f]) fpost' (by simp [hFields]) (by simp [hPre]) hPost'
      (by simpa [Nat.add_assoc, Nat.add_comm 1] using hTailAt) (by simp at hFuel; omega)


/- The record's members from the values read: each field with the value
read for it, when every field has one. -/
theorem runs_recordOut
    {got : Array (Option Json)}
    (fs : List (String × Schema × Option Json))
    (ms : List (String × Json))
    (k : Nat)
    (hNames : List.Forall₂ (fun f m => m.1 = f.1) fs ms)
    (hGot : ∀ j (hj : j < ms.length), got[k + j]! = some (ms[j]).2) :
    Runs (recordOut got k fs) b i ms i := by
  induction fs generalizing ms k with
  | nil =>
    cases hNames
    exact Runs.pure _
  | cons f fs ih =>
    cases hNames with
    | @cons _ m _ ms hName hRest =>
      obtain ⟨fname, s, dflt⟩ := f
      obtain ⟨mname, v⟩ := m
      simp only at hName
      subst hName
      have hHead : got[k]! = some v := by
        have h := hGot 0 (by simp)
        rwa [Nat.add_zero, List.getElem_cons_zero] at h
      have hTail : Runs (recordOut got (k + 1) fs) b i ms i :=
        ih ms (k + 1) hRest fun j hj => by
          have h := hGot (j + 1) (by simp; omega)
          rwa [List.getElem_cons_succ, ← Nat.add_assoc, Nat.add_right_comm] at h
      unfold recordOut
      simp only [hHead]
      exact Runs.bind (Runs.pure _) (Runs.bind hTail (Runs.pure _))

/- An object whose members are a record's fields in order, each
recovering against its field's shape, read whole; nothing past its
closing brace is read. -/
theorem runs_record
    {d : Nat}
    {name : String}
    (ms : List (String × Json))
    (hFields : List.Forall₂ (FieldReads (typed d)) fields ms)
    (hNodup : (fields.map Prod.fst).Nodup)
    (hDepth : 0 < d)
    (hAt : At b i (write (.obj ms)).toUTF8.toList) :
    Runs (typed (d + 1) (.record name fields)) b i (.obj ms)
      (i + (write (.obj ms)).toUTF8.toList.length) := by
  have hLength : fields.length = ms.length := hFields.length_eq
  have hNames : List.Forall₂ (fun f m => m.1 = f.1) fields ms := hFields.imp fun _ _ h => h.1
  have hOut : Runs (recordOut (gotAfter fields.length ms) 0 fields) b
      (i + (write (.obj ms)).toUTF8.toList.length) ms (i + (write (.obj ms)).toUTF8.toList.length) :=
    runs_recordOut fields ms 0 hNames fun j hj => by rw [Nat.zero_add, hLength, gotAfter_all hj]
  rw [typed_succ]
  unfold typedStep
  cases ms with
  | nil =>
    cases hFields
    have hBytes : (write (.obj [])).toUTF8.toList = [123, 125] := by
      rw [write, toUTF8_toList]
      simp [writeMembers]
      rfl
    rw [hBytes] at hAt hOut ⊢
    obtain ⟨hOpen, hClose⟩ : b[i]? = some 123 ∧ b[i + 1]? = some 125 := by
      simpa only [at_cons, at_nil, and_true] using hAt
    obtain ⟨f, hf⟩ : ∃ f, b.size = f + 1 := ⟨b.size - 1, by have := lt_size_of_getElem? hClose; omega⟩
    refine Runs.positioned (Runs.bind (runs_peekPastBlanks_some hOpen rfl) ?_)
    refine Runs.bind (runs_enter hDepth) (Runs.bind runs_read ?_)
    rw [hf, gotAfter_nil]
    refine Runs.bind (show Runs (recordMembers (typed d) [] (f + 1) (gotAfter 0 []) true) b (i + 1)
      (gotAfter 0 [], .ok ()) (i + 1) by
        rw [recordMembers]
        exact Runs.bind (runs_nextKey_close true hClose) (Runs.pure _)) ?_
    exact Runs.bind (runs_closeObject hClose) (Runs.bind hOut (Runs.pure _))
  | cons m ms =>
    obtain ⟨f, fs, rfl, ⟨hName, hRecovers⟩, hRest⟩ : ∃ f fs, fields = f :: fs ∧
        FieldReads (typed d) f m ∧ List.Forall₂ (FieldReads (typed d)) fs ms := by
      cases hFields with
      | cons hHead hTail => exact ⟨_, _, rfl, hHead, hTail⟩
    obtain ⟨t, rest, hTerm, ht⟩ := memberBytes_terminator ms
    rw [toUTF8_toList_obj] at hAt hOut ⊢
    obtain ⟨hOpen, hMembers⟩ := at_cons.mp hAt
    rw [at_append, at_append, at_append] at hMembers
    obtain ⟨⟨⟨hKeyAt, hColonAt⟩, hValueAt⟩, hTailAt⟩ := hMembers
    simp only [List.length_append, List.length_singleton] at hValueAt hTailAt
    rw [show i + 1 + ((quote m.1).toUTF8.toList.length + 1) =
      i + 1 + (quote m.1).toUTF8.toList.length + 1 by omega] at hValueAt
    rw [show i + 1 + ((quote m.1).toUTF8.toList.length + 1 + (write m.2).toUTF8.toList.length) =
      i + 1 + (quote m.1).toUTF8.toList.length + 1 + (write m.2).toUTF8.toList.length by omega]
      at hTailAt
    have hColon : b[i + 1 + (quote m.1).toUTF8.toList.length]? = some 58 :=
      (at_cons.mp hColonAt).1
    have hValue : At b (i + 1 + (quote m.1).toUTF8.toList.length + 1)
        ((write m.2).toUTF8.toList ++ [t]) := by
      rw [hTerm] at hTailAt
      exact at_append.mpr ⟨hValueAt, at_cons.mpr ⟨(at_cons.mp hTailAt).1, at_nil⟩⟩
    have hClose : b[i + 1 + (quote m.1).toUTF8.toList.length + 1 + (write m.2).toUTF8.toList.length +
        (memberBytes ms).length]? = some 125 :=
      (at_cons.mp (at_append.mp hTailAt).2).1
    have hFuel := length_le_memberBytes ms
    have hSize := lt_size_of_getElem? hClose
    obtain ⟨g, hg⟩ : ∃ g, b.size = g + 1 := ⟨b.size - 1, by omega⟩
    have hEnd : i + (123 :: ((quote m.1).toUTF8.toList ++ [58] ++ (write m.2).toUTF8.toList ++
        (memberBytes ms ++ [125]))).length =
          i + 1 + (quote m.1).toUTF8.toList.length + 1 + (write m.2).toUTF8.toList.length +
            (memberBytes ms).length + 1 := by
      simp only [List.length_cons, List.length_append, List.length_nil]
      omega
    -- the first member, then the others after their commas
    have hAll : Runs (recordMembers (typed d) (f :: fs) (g + 1) (gotAfter (f :: fs).length []) true)
        b (i + 1) (gotAfter (f :: fs).length (m :: ms), .ok ())
        (i + 1 + (quote m.1).toUTF8.toList.length + 1 + (write m.2).toUTF8.toList.length +
          (memberBytes ms).length) :=
      runs_recordMembers_cons [] [] fs rfl rfl hName hNodup
        (runs_nextKey_first m.1 hKeyAt) hColon (hRecovers hValue ht)
        (by simpa using runs_recordMembers [m] ms [f] fs rfl rfl hRest hNodup hTailAt (by omega))
    refine Runs.positioned (Runs.bind (runs_peekPastBlanks_some hOpen rfl) ?_)
    refine Runs.bind (runs_enter hDepth) (Runs.bind runs_read ?_)
    rw [hg, gotAfter_nil, hEnd]
    refine Runs.bind hAll (Runs.bind (runs_closeObject hClose) ?_)
    rw [← hEnd]
    exact Runs.bind hOut (Runs.pure _)

end Records

/- A value read whole, with nothing read past its text, recovers. -/
theorem Recovers.of_runs
    {x : Reader Json}
    {v : Json}
    (h : ∀ {b : ByteArray} {i : Nat}, At b i (write v).toUTF8.toList →
      Runs x b i v (i + (write v).toUTF8.toList.length)) :
    Recovers x v :=
  fun hAt _ => h (at_append.mp hAt).1

/- A list recovers when each of its items recovers and starts a value. -/
theorem recovers_list
    {d : Nat}
    {item : Schema}
    (xs : List Json)
    (hItems : ∀ x ∈ xs, Recovers (typed d item) x ∧ Leads x)
    (hDepth : 0 < d) :
    Recovers (typed (d + 1) (.list item)) (.arr xs) := by
  apply Recovers.of_runs
  intro b i hAt
  exact runs_list xs hItems hDepth hAt

end Reader

/- A whole text read against a schema gives the value its reading
recovers. -/
theorem readBytesAs_of_runs
    {schema : Schema}
    {bytes : ByteArray}
    {v : Json}
    (h : Reader.Runs (Reader.typed maxDepth schema) bytes 0 v bytes.size) :
    readBytesAs schema bytes = .ok v := by
  have hEnd : bytes[bytes.size]? = none := getElem?_neg _ _ (Nat.lt_irrefl _)
  have hRun : Reader.Runs (do let v ← Reader.typed maxDepth schema; Reader.finish; return v) bytes 0 v
      bytes.size :=
    Reader.Runs.bind h (Reader.Runs.bind (Reader.runs_finish hEnd) (Reader.Runs.pure v))
  unfold Reader.Runs Reader.outcome at hRun
  unfold readBytesAs
  rw [hRun]
  rfl

/- A text that is a record's object, read whole against the record. -/
theorem readBytesAs_record
    {name : String}
    {fields : List (String × Schema × Option Json)}
    (ms : List (String × Json))
    (hFields : List.Forall₂ (Reader.FieldReads (Reader.typed (maxDepth - 1))) fields ms)
    (hNodup : (fields.map Prod.fst).Nodup) :
    readBytesAs (.record name fields) (write (.obj ms)).toUTF8 = .ok (.obj ms) := by
  refine readBytesAs_of_runs ?_
  have h : Reader.Runs (Reader.typed (maxDepth - 1 + 1) (.record name fields)) (write (.obj ms)).toUTF8
      0 (.obj ms) (0 + (write (.obj ms)).toUTF8.toList.length) :=
    Reader.runs_record ms hFields hNodup (by decide) (Reader.at_toList (write (.obj ms)).toUTF8)
  rwa [Nat.zero_add, ← size_eq_length_toList] at h

end Json

end NeuronFleet
