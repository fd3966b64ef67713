import ObjectTracking.Proofs.Json.Numbers

/-!
# What is written can be read

The texts of strings, numbers and objects are read as what they are written for, whatever is inside
a string and wherever the text stands (`Json.ReadsAs`). A record whose writing has stopped at a
field leaves the reader inside of the record (`Json.Opens`), and whatever follows is read as a part
of it.
-/

namespace ObjectTracking

namespace Json

/-! ### Strings -/

theorem ofHex4?_codeEscape {n : Nat} (h : n < 0x20) :
    ofHex4? '0' '0' (Nat.digitChar (n / 16)) (Nat.digitChar (n % 16)) = some n := by
  revert n
  decide

/-- Every character is read back from its escape. -/
theorem readPieces_escape (before : List Piece) (c : Char) (rest : List Char) :
    readPieces before (escape c ++ rest) = readPieces (.char c :: before) rest := by
  unfold escape
  split
  case h_8 quote backslash _ _ _ _ _ =>
    split
    · rename_i control
      have code : Piece.ofCode c.toNat = .char c := by
        have low : ¬ (0xD800 ≤ c.toNat ∧ c.toNat < 0xDC00) := by omega
        have high : ¬ (0xDC00 ≤ c.toNat ∧ c.toNat < 0xE000) := by omega
        rw [Piece.ofCode, if_neg low, if_neg high, Char.ofNat_toNat]
      simp [codeEscape, readPieces, ofHex4?_codeEscape control, code]
    · rename_i printable
      rw [List.singleton_append, readPieces, if_neg printable]
      · exact quote
      · exact fun _ _ _ _ _ escaped _ => backslash escaped
      · exact fun _ _ escaped _ => backslash escaped
  all_goals rfl

theorem readPieces_escaped (before : List Piece) (cs rest : List Char) :
    readPieces before (cs.flatMap escape ++ '"' :: rest) =
      some (before.reverse ++ cs.map .char, rest) := by
  induction cs generalizing before with
  | nil => simp [readPieces]
  | cons c cs ih =>
    rw [List.flatMap_cons, List.append_assoc, readPieces_escape, ih]
    simp

theorem joinPieces_map_char (cs : List Char) : joinPieces (cs.map .char) = some cs := by
  induction cs with
  | nil => rfl
  | cons c cs ih => simp [joinPieces, ih]

theorem toList_quoted (text : String) :
    (quoted text).toList = '"' :: (text.toList.flatMap escape ++ ['"']) := by
  simp [quoted]

/-- No string takes more than a line. -/
theorem newline_not_mem_quoted (text : String) : '\n' ∉ (quoted text).toList := by
  have escaped : ∀ c : Char, '\n' ∉ escape c := by
    intro c
    unfold escape
    split
    case h_8 newline _ _ =>
      split
      · rename_i control
        have codes : ∀ n < 0x20, '\n' ∉ codeEscape n := by decide
        exact codes _ control
      · exact fun here => newline (List.mem_singleton.1 here).symm
    all_goals decide
  simp [toList_quoted, escaped]

theorem readString_quoted (text : String) (rest : List Char) :
    readString (text.toList.flatMap escape ++ '"' :: rest) = some (some text, rest) := by
  simp [readString, readPieces_escaped, joinPieces_map_char]

theorem readKey_quoted (key : String) (rest : List Char) :
    readKey ((quoted key).toList ++ ':' :: rest) = some (some key, rest) := by
  simp [readKey, skipBlanks, isBlank, toList_quoted, readString_quoted, List.dropWhile]

/-! ### Values, wherever they stand -/

/-- Wherever the text stands, it is read as the value. -/
def ReadsAs (text : List Char) (value : Json) : Prop :=
  ∃ steps ≤ text.length, ∀ fuel frames rest, Ends rest →
    readFrom (fuel + steps) frames none (text ++ rest) = readFrom fuel frames (some value) rest

theorem readPrefix_of_readsAs {text : List Char} {value : Json} (h : ReadsAs text value) :
    readPrefix text = some (value, []) := by
  obtain ⟨steps, le, read⟩ := h
  have fuel : text.length + 2 = text.length - steps + 1 + 1 + steps := by omega
  have whole := read (text.length - steps + 1 + 1) [] [] (by simp [Ends])
  rw [List.append_nil] at whole
  rw [readPrefix, fuel, whole, readFrom]

theorem ofText?_of_readsAs {text : String} {value : Json} (h : ReadsAs text.toList value) :
    ofText? text = some value := by
  rw [ofText?, readPrefix_of_readsAs h]
  rfl

theorem readFrom_scalar {c : Char} {cs : List Char} (blank : isBlank c = false) (array : c ≠ '[')
    (object : c ≠ '\x7b') (fuel : Nat) (frames : List Frame) :
    readFrom (fuel + 1) frames none (c :: cs) =
      (readScalar (c :: cs)).bind fun (value, rest) => readFrom fuel frames (some value) rest := by
  have front : skipBlanks (c :: cs) = c :: cs := by simp [skipBlanks, blank]
  rw [readFrom, front]
  split
  · rename_i here
    exact absurd (List.cons.inj here).1 array
  · rename_i here
    exact absurd (List.cons.inj here).1 object
  · cases readScalar (c :: cs) <;> rfl

theorem readsAs_null : ReadsAs "null".toList .null :=
  ⟨1, by decide, fun fuel frames rest _ => rfl⟩

theorem readsAs_quoted (text : String) : ReadsAs (quoted text).toList (.string (some text)) := by
  refine ⟨1, by simp [toList_quoted], fun fuel frames rest _ => ?_⟩
  rw [toList_quoted, List.cons_append, readFrom_scalar (by decide) (by decide) (by decide)]
  simp [readScalar, readString_quoted]

/-- A number starts with a digit or a minus sign. -/
theorem text_eq_cons {n : NumberText} (h : n.Sound) :
    ∃ c cs, n.text = c :: cs ∧ (c.isDigit = true ∨ c = '-') := by
  obtain ⟨c, cs, whole_eq, digit⟩ := h.first_digit
  rw [NumberText.text, NumberText.signText, whole_eq]
  cases n.negative with
  | true => exact ⟨'-', _, rfl, .inr rfl⟩
  | false => exact ⟨c, _, rfl, .inl digit⟩

theorem ne_of_start {c letter : Char} (start : c.isDigit = true ∨ c = '-')
    (other : letter.isDigit = false ∧ letter ≠ '-') : c ≠ letter := by
  rintro rfl
  rcases start with digit | sign
  · rw [other.1] at digit
    cases digit
  · exact other.2 sign

theorem readScalar_number {c : Char} {cs : List Char} (start : c.isDigit = true ∨ c = '-') :
    readScalar (c :: cs) = (readNumber (c :: cs)).map fun (n, rest) => (number n, rest) := by
  rw [readScalar]
  · exact fun _ here => ne_of_start start (by decide) (List.cons.inj here).1
  · exact fun _ here => ne_of_start start (by decide) (List.cons.inj here).1
  · exact fun _ here => ne_of_start start (by decide) (List.cons.inj here).1
  · exact fun _ here => ne_of_start start (by decide) (List.cons.inj here).1

theorem readsAs_number {n : NumberText} (h : n.Sound) : ReadsAs n.text (.number n.value) := by
  obtain ⟨c, cs, text_eq, start⟩ := text_eq_cons h
  have blank : isBlank c = false := by
    simp only [isBlank, Bool.or_eq_false_iff, decide_eq_false_iff_not]
    refine ⟨⟨⟨?_, ?_⟩, ?_⟩, ?_⟩ <;> exact ne_of_start start (by decide)
  have array : c ≠ '[' := ne_of_start start (by decide)
  have object : c ≠ '\x7b' := ne_of_start start (by decide)
  refine ⟨1, by simp [text_eq], fun fuel frames rest ends => ?_⟩
  have read := readNumber_text h ends
  rw [text_eq, List.cons_append] at read ⊢
  rw [readFrom_scalar blank array object, readScalar_number start, read]
  rfl

theorem readsAs_nat (n : Nat) :
    ReadsAs (toString n).toList (.number (NumberText.ofNat n).value) := by
  rw [toList_toString]
  exact readsAs_number (NumberText.ofNat_sound n)

/-- What a double that has been written is read as. -/
def ofDouble (x : Float) : Json := (ofText? (doubleText x)).getD .null

theorem readsAs_double (x : Float) : ReadsAs (doubleText x).toList (ofDouble x) := by
  have some_value : ∃ value, ReadsAs (doubleText x).toList value := by
    rcases doubleText_sound x with null | ⟨n, h, text_eq⟩
    · exact ⟨_, null ▸ readsAs_null⟩
    · exact ⟨_, text_eq ▸ readsAs_number h⟩
  obtain ⟨value, reads⟩ := some_value
  rwa [ofDouble, ofText?_of_readsAs reads]

/-! ### Records -/

/-- A field of a record as it is written, with what its text is read as. -/
structure Member where
  key : String
  text : String
  value : Json
  reads : ReadsAs text.toList value
  oneLine : '\n' ∉ text.toList

namespace Member

def written (m : Member) : List Char := (quoted m.key).toList ++ ':' :: m.text.toList

/-- The fields after the first. -/
def later (ms : List Member) : List Char := ms.flatMap fun m => ',' :: m.written

def fields (ms : List Member) : List (String × Option String) :=
  ms.map fun m => (m.key, some m.text)

def members (ms : List Member) : List (Option String × Json) :=
  ms.map fun m => (some m.key, m.value)

def nat (key : String) (n : Nat) : Member where
  key := key
  text := toString n
  value := .number (NumberText.ofNat n).value
  reads := readsAs_nat n
  oneLine := by
    rw [toList_toString]
    exact NumberText.newline_not_mem (NumberText.ofNat_sound n)

def double (key : String) (x : Float) : Member where
  key := key
  text := doubleText x
  value := ofDouble x
  reads := readsAs_double x
  oneLine := by
    rcases doubleText_sound x with null | ⟨n, h, text_eq⟩
    · rw [null]
      decide
    · rw [text_eq]
      exact NumberText.newline_not_mem h

def string (key : String) (text : String) : Member where
  key := key
  text := quoted text
  value := .string (some text)
  reads := readsAs_quoted text
  oneLine := newline_not_mem_quoted text

theorem newline_not_mem_written (m : Member) : '\n' ∉ m.written := by
  simpa [written, newline_not_mem_quoted] using m.oneLine

theorem newline_not_mem_later (ms : List Member) : '\n' ∉ later ms := by
  simp [later, newline_not_mem_written]

end Member

theorem writeFields_later (ms : List Member) (more : List (String × Option String)) :
    (Detection.writeFields (Member.fields ms ++ more) ",").1.toList =
        Member.later ms ++ (Detection.writeFields more ",").1.toList ∧
      (Detection.writeFields (Member.fields ms ++ more) ",").2 =
        (Detection.writeFields more ",").2 := by
  induction ms with
  | nil => simp [Member.fields, Member.later]
  | cons m ms ih =>
    simp only [Member.fields, List.map_cons, List.cons_append, Detection.writeFields] at ih ⊢
    simp [ih, Member.later, Member.written]

theorem writeFields_all (m : Member) (ms : List Member) (more : List (String × Option String)) :
    (Detection.writeFields (Member.fields (m :: ms) ++ more) "").1.toList =
        m.written ++ Member.later ms ++ (Detection.writeFields more ",").1.toList ∧
      (Detection.writeFields (Member.fields (m :: ms) ++ more) "").2 =
        (Detection.writeFields more ",").2 := by
  have rest := writeFields_later ms more
  simp only [Member.fields, List.map_cons, List.cons_append, Detection.writeFields] at rest ⊢
  simp [rest, Member.written]

theorem readFrom_comma (fuel : Nat) (frames : List Frame) (before : List (Option String × Json))
    (key : Option String) (value : Json) (s : List Char) :
    readFrom (fuel + 1) (.object before key :: frames) (some value) (',' :: s) =
      (readKey s).bind fun (next, rest) =>
        readFrom fuel (.object ((key, value) :: before) next :: frames) none rest := rfl

theorem readFrom_open {s : List Char} (filled : s.head? = some '"') (fuel : Nat)
    (frames : List Frame) :
    readFrom (fuel + 1) frames none ('\x7b' :: s) =
      (readKey s).bind fun (key, rest) => readFrom fuel (.object [] key :: frames) none rest := by
  cases s with
  | nil => cases filled
  | cons c s =>
    obtain rfl := Option.some.inj filled
    rfl

theorem readFrom_close (fuel : Nat) (frames : List Frame) (before : List (Option String × Json))
    (key : Option String) (value : Json) (s : List Char) :
    readFrom (fuel + 1) (.object before key :: frames) (some value) ('\x7d' :: s) =
      readFrom fuel frames (some (.object ((key, value) :: before).reverse)) s := rfl

/-- The value of a field is read into the record. -/
theorem read_member (m : Member) :
    ∃ steps ≤ m.text.toList.length, ∀ fuel frames before rest, Ends rest →
      (readKey (m.written ++ rest)).bind
          (fun (key, rest) => readFrom (fuel + steps) (.object before key :: frames) none rest) =
        readFrom fuel (.object before (some m.key) :: frames) (some m.value) rest := by
  obtain ⟨steps, le, read⟩ := m.reads
  refine ⟨steps, le, fun fuel frames before rest ends => ?_⟩
  rw [Member.written, List.append_assoc, List.cons_append, readKey_quoted]
  exact read fuel _ rest ends

theorem ends_later (ms : List Member) {rest : List Char} (ends : Ends rest) :
    Ends (Member.later ms ++ rest) := by
  cases ms with
  | nil => exact ends
  | cons m ms =>
    intro c hc
    obtain rfl : ',' = c := by simpa [Member.later] using hc
    exact .inl rfl

/-- The fields after the first are read into the record. -/
theorem read_later (ms : List Member) :
    ∃ steps ≤ (Member.later ms).length, ∀ fuel frames before key value rest, Ends rest →
      ∃ before' key' value',
        ((key', value') :: before').reverse =
          ((key, value) :: before).reverse ++ Member.members ms ∧
        readFrom (fuel + steps) (.object before key :: frames) (some value)
            (Member.later ms ++ rest) =
          readFrom fuel (.object before' key' :: frames) (some value') rest := by
  induction ms with
  | nil =>
    exact ⟨0, Nat.le_refl _, fun fuel frames before key value rest _ =>
      ⟨before, key, value, (List.append_nil _).symm, rfl⟩⟩
  | cons m ms ih =>
    obtain ⟨steps, le, read⟩ := read_member m
    obtain ⟨steps', le', read'⟩ := ih
    refine ⟨steps' + steps + 1, ?_, fun fuel frames before key value rest ends => ?_⟩
    · simp [Member.later, Member.written] at le' ⊢
      omega
    · obtain ⟨before', key', value', members_eq, later_eq⟩ :=
        read' fuel frames ((key, value) :: before) (some m.key) m.value rest ends
      refine ⟨before', key', value', ?_, ?_⟩
      · simp [members_eq, Member.members]
      · have first := read (fuel + steps') frames ((key, value) :: before) _ (ends_later ms ends)
        rw [later_eq] at first
        rw [← first, ← Nat.add_assoc, ← Nat.add_assoc, Member.later, List.flatMap_cons,
          List.append_assoc, List.cons_append, readFrom_comma]
        rfl

/-- Reading the fields of a record from its brace on. -/
theorem read_fields (m : Member) (ms : List Member) :
    ∃ steps ≤ (m.written ++ Member.later ms).length, ∀ fuel frames rest, Ends rest →
      ∃ before key value,
        ((key, value) :: before).reverse = Member.members (m :: ms) ∧
        readFrom (fuel + steps + 1) frames none ('\x7b' :: (m.written ++ Member.later ms ++ rest)) =
          readFrom fuel (.object before key :: frames) (some value) rest := by
  obtain ⟨steps, le, read⟩ := read_member m
  obtain ⟨steps', le', read'⟩ := read_later ms
  refine ⟨steps' + steps, ?_, fun fuel frames rest ends => ?_⟩
  · simp [Member.written] at le' ⊢
    omega
  · obtain ⟨before, key, value, members_eq, later_eq⟩ :=
      read' fuel frames [] (some m.key) m.value rest ends
    refine ⟨before, key, value, members_eq, ?_⟩
    have first := read (fuel + steps') frames [] _ (ends_later ms ends)
    have filled : (m.written ++ (Member.later ms ++ rest)).head? = some '"' := by
      simp [Member.written, toList_quoted]
    rw [later_eq] at first
    rw [← Nat.add_assoc, List.append_assoc, readFrom_open filled, ← first]

theorem readsAs_record (m : Member) (ms : List Member) :
    ReadsAs ('\x7b' :: (m.written ++ Member.later ms ++ ['\x7d']))
      (.object (Member.members (m :: ms))) := by
  obtain ⟨steps, le, read⟩ := read_fields m ms
  refine ⟨steps + 2, by simp at le ⊢; omega, fun fuel frames rest ends => ?_⟩
  obtain ⟨before, key, value, members_eq, fields_eq⟩ :=
    read (fuel + 1) frames ('\x7d' :: rest) (fun c hc => .inr (Option.some.inj hc).symm)
  rw [readFrom_close, members_eq] at fields_eq
  have steps_eq : fuel + (steps + 2) = fuel + 1 + steps + 1 := by omega
  rw [← fields_eq, steps_eq, List.cons_append, List.append_assoc]
  rfl

/-- A record that is begun: the reader is left inside of it, at a value. -/
def Opens (text : List Char) : Prop :=
  ∃ steps ≤ text.length, ∀ fuel frames rest, ∃ before key,
    readFrom (fuel + steps) frames none (text ++ rest) =
      readFrom fuel (.object before key :: frames) none rest

theorem opens_record (m : Member) (ms : List Member) (key : String) :
    Opens ('\x7b' :: (m.written ++ Member.later ms ++ ',' :: ((quoted key).toList ++ [':']))) := by
  obtain ⟨steps, le, read⟩ := read_fields m ms
  refine ⟨steps + 2, by simp at le ⊢; omega, fun fuel frames rest => ?_⟩
  obtain ⟨before, last, value, -, fields_eq⟩ :=
    read (fuel + 1) frames (',' :: ((quoted key).toList ++ ':' :: rest))
      (fun c hc => .inl (Option.some.inj hc).symm)
  rw [readFrom_comma, readKey_quoted] at fields_eq
  refine ⟨(last, value) :: before, some key, Eq.trans ?_ fields_eq⟩
  have steps_eq : fuel + (steps + 2) = fuel + 1 + steps + 1 := by omega
  simp [steps_eq]

theorem read_opens {begun : List (List Char)} (opens : ∀ text ∈ begun, Opens text)
    (ne_nil : begun ≠ []) :
    ∃ steps ≤ begun.flatten.length, ∀ fuel frames rest, ∃ before key more,
      readFrom (fuel + steps) frames none (begun.flatten ++ rest) =
        readFrom fuel (.object before key :: more) none rest := by
  induction begun with
  | nil => exact absurd rfl ne_nil
  | cons text begun ih =>
    obtain ⟨first, others⟩ := List.forall_mem_cons.1 opens
    obtain ⟨steps, le, read⟩ := first
    by_cases last : begun = []
    · subst last
      refine ⟨steps, by simpa using le, fun fuel frames rest => ?_⟩
      obtain ⟨before, key, text_eq⟩ := read fuel frames rest
      exact ⟨before, key, frames, by simpa using text_eq⟩
    · obtain ⟨steps', le', read'⟩ := ih others last
      refine ⟨steps' + steps, by simp at le' ⊢; omega, fun fuel frames rest => ?_⟩
      obtain ⟨before, key, text_eq⟩ := read (fuel + steps') frames (begun.flatten ++ rest)
      obtain ⟨before', key', more, rest_eq⟩ := read' fuel (.object before key :: frames) rest
      refine ⟨before', key', more, ?_⟩
      rw [← Nat.add_assoc, List.flatten_cons, List.append_assoc, text_eq, rest_eq]

/-- What follows a record that is begun is read inside of it, and the text ends there. -/
theorem ofText?_of_opens {begun : List (List Char)} (opens : ∀ text ∈ begun, Opens text)
    (ne_nil : begun ≠ []) {text : List Char} {value : Json} (h : ReadsAs text value) :
    ofText? (String.ofList (begun.flatten ++ text)) = none := by
  obtain ⟨steps, le, read⟩ := read_opens opens ne_nil
  obtain ⟨steps', le', read'⟩ := h
  have length : (begun.flatten ++ text).length + 2 =
      begun.flatten.length + text.length - (steps + steps') + 1 + 1 + steps' + steps := by
    simp at le ⊢
    omega
  obtain ⟨before, key, more, begun_eq⟩ := read
    (begun.flatten.length + text.length - (steps + steps') + 1 + 1 + steps') [] text
  have text_eq := read' (begun.flatten.length + text.length - (steps + steps') + 1 + 1)
    (.object before key :: more) [] (by simp [Ends])
  rw [List.append_nil] at text_eq
  have read_eq : readPrefix (begun.flatten ++ text) = none := by
    rw [readPrefix, length, begun_eq, text_eq]
    rfl
  simp [ofText?, read_eq]

end Json

end ObjectTracking
