import MediaSession.Json.Reader
import MediaSession.Json.Writer
import Mathlib.Data.List.Nodup
import Mathlib.Data.Nat.Digits.Defs

namespace MediaSession

/-- Counted in tens, the digits of a number spell it. -/
theorem digitValue?_of_isDigit {c : Char} (h : c.isDigit = true) :
    digitValue? 10 c = some (c.toNat - '0'.toNat) := by
  have hc : '0' ≤ c ∧ c ≤ '9' := by simpa [Char.isDigit, Char.le_def] using h
  have hv : c.toNat - '0'.toNat < 10 := by
    have hu : c.toNat ≤ '9'.toNat := hc.2
    have h9 : '9'.toNat = 57 := rfl
    have h0 : '0'.toNat = 48 := rfl
    omega
  simp only [digitValue?, if_pos hc, if_pos hv]

theorem isDigit_of_mem_toDigits {n : Nat} {c : Char} (h : c ∈ Nat.toDigits 10 n) :
    isDigit 10 c = true := by
  have hd := Nat.isDigit_of_mem_toDigits (by decide) (by decide) h
  rw [isDigit, digitValue?_of_isDigit hd]
  rfl

theorem spelled_toDigits (n : Nat) : spelled 10 (Nat.toDigits 10 n) = n := by
  have hall : ∀ c ∈ Nat.toDigits 10 n, (digitValue? 10 c).getD 0 = c.toNat - '0'.toNat := by
    intro c hc
    rw [digitValue?_of_isDigit (Nat.isDigit_of_mem_toDigits (by decide) (by decide) hc)]
    rfl
  calc spelled 10 (Nat.toDigits 10 n)
      = Nat.ofDigitChars 10 (Nat.toDigits 10 n) 0 := by
        rw [Nat.ofDigitChars_eq_foldl, spelled]
        exact List.foldl_ext _ _ 0 fun m c hc => by rw [hall c hc]
    _ = n := Nat.ofDigitChars_ten_toDigits

/-- A number other than zero is not written with a leading zero. -/
theorem head?_toDigits_ne_zero {n : Nat} (hn : n ≠ 0) :
    (Nat.toDigits 10 n).head? ≠ some '0' := by
  induction n using Nat.strong_induction_on with
  | h n ih =>
    by_cases hlt : n < 10
    · have hc : ∀ m < 10, m ≠ 0 → m.digitChar ≠ '0' := by decide
      rw [Nat.toDigits_of_lt_base hlt]
      exact fun h => hc n hlt hn (Option.some.inj h)
    · rw [Nat.toDigits_of_base_le (by decide) (by omega), List.head?_append_of_ne_nil]
      · exact ih (n / 10) (by omega) (by omega)
      · exact Nat.toDigits_ne_nil

theorem digitRun_append {digits rest : List Char} (hd : ∀ c ∈ digits, isDigit 10 c = true)
    (hr : ∀ c ∈ rest.head?, isDigit 10 c = false) :
    digitRun (digits ++ rest) = (digits, rest) := by
  rw [digitRun, List.takeWhile_append_of_pos hd, List.dropWhile_append_of_pos hd]
  cases rest with
  | nil => simp
  | cons c rest =>
    have hc := hr c rfl
    simp [hc]

namespace Datum

/-- What a document can hold without loss: numbers are whole and fit into 64 bits, no key is
repeated, and lists and records are nested no deeper than `depth`. -/
inductive Writable : Nat → Datum → Prop
  | null {depth} : Writable depth .null
  | flag {depth value} : Writable depth (.flag value)
  | integer {depth} {value : Int} (hl : -0x8000000000000000 ≤ value)
      (hu : value < 0x10000000000000000) : Writable depth (.integer value)
  | text {depth value} : Writable depth (.text value)
  | list {depth items} (h : ∀ item ∈ items, Writable depth item) :
      Writable (depth + 1) (.list items)
  | record {depth fields} (hn : (fields.map (·.1)).Nodup)
      (h : ∀ field ∈ fields, Writable depth field.2) : Writable (depth + 1) (.record fields)

/-- A key that is not there yet takes the last place. -/
theorem put_of_notMem {key : String} {fields : List (String × Datum)}
    (h : key ∉ fields.map (·.1)) (value : Datum) :
    put key value fields = fields ++ [(key, value)] := by
  induction fields with
  | nil => rfl
  | cons field fields ih =>
    obtain ⟨k, v⟩ := field
    obtain ⟨hk, hf⟩ := not_or.mp (List.mem_cons.not.mp h)
    rw [put, if_neg (Ne.symm hk), ih hf]
    rfl

end Datum

namespace Json

theorem skipBlank_cons {c : Char} (s : List Char)
    (h : c ≠ ' ' ∧ c ≠ '\t' ∧ c ≠ '\n' ∧ c ≠ '\r') : skipBlank (c :: s) = c :: s := by
  simp [skipBlank, h]

theorem hexQuad?_control : ∀ n < 0x20,
    hexQuad? '0' '0' (hexDigit (n / 16)) (hexDigit n) = some n := by decide

/-- The letter of an escape is read as the character that it stands for. -/
theorem escaped?_of_shortEscape? {c letter : Char} (h : shortEscape? c = some letter) :
    escaped? letter = some c ∧ letter ≠ 'u' := by
  unfold shortEscape? at h
  split at h <;> cases h <;> exact ⟨rfl, by decide⟩

theorem ne_of_shortEscape?_eq_none {c : Char} (h : shortEscape? c = none) :
    c ≠ '"' ∧ c ≠ '\\' := by
  constructor <;> rintro rfl <;> cases h

/-- The reader takes back what the writer has made of a character. -/
theorem readText_escape (c : Char) (s : List Char) :
    readText (escape c ++ s) = (readText s).map fun r => (c :: r.1, r.2) := by
  unfold escape
  split
  next letter hs =>
    obtain ⟨he, hu⟩ := escaped?_of_shortEscape? hs
    simp [readText, he, hu]
  next hs =>
    obtain ⟨hq, hb⟩ := ne_of_shortEscape?_eq_none hs
    split
    next hc =>
      have hh := hexQuad?_control c.toNat hc
      have hl : isLowSurrogate c.toNat = false := by
        simp [isLowSurrogate]
        omega
      have hg : isHighSurrogate c.toNat = false := by
        simp [isHighSurrogate]
        omega
      simp [readText, hh, hl, hg]
    next hc => simp [readText, hb, hc]

theorem readText_flatMap_escape (text rest : List Char) :
    readText (text.flatMap escape ++ '"' :: rest) = some (text, rest) := by
  induction text with
  | nil => rfl
  | cons c text ih => rw [List.flatMap_cons, List.append_assoc, readText_escape, ih]; rfl

example : "v=0\r\n".toList.flatMap escape = "v=0\\r\\n".toList := by decide

/-- A text that cannot extend a number that stands before it. -/
def Halts (rest : List Char) : Prop :=
  ∀ c ∈ rest.head?, isDigit 10 c = false ∧ c ≠ '.' ∧ c ≠ 'e' ∧ c ≠ 'E'

theorem Halts.readFraction {rest : List Char} (h : Halts rest) :
    readFraction rest = some ([], rest) := by
  cases rest with
  | nil => rfl
  | cons c rest =>
    obtain ⟨_, hp, _⟩ := h c rfl
    simp [Json.readFraction, hp]

theorem Halts.readExponent {rest : List Char} (h : Halts rest) :
    readExponent rest = some (none, rest) := by
  cases rest with
  | nil => rfl
  | cons c rest =>
    obtain ⟨_, _, he⟩ := h c rfl
    simp [Json.readExponent, he]

theorem Halts.digit {rest : List Char} (h : Halts rest) :
    ∀ c ∈ rest.head?, isDigit 10 c = false :=
  fun c hc => (h c hc).1

/-- The digits of a number are not refused for a leading zero. -/
theorem toDigits_accepted (n : Nat) :
    ¬ (Nat.toDigits 10 n = [] ∨
      ((Nat.toDigits 10 n).head? = some '0' ∧ Nat.toDigits 10 n ≠ ['0'])) := by
  rintro (h | ⟨hz, hn⟩)
  · exact Nat.toDigits_ne_nil h
  · by_cases h0 : n = 0
    · subst h0
      exact hn (Nat.toDigits_zero 10)
    · exact head?_toDigits_ne_zero h0 hz

theorem readNumber_natural {n : Nat} {rest : List Char} (hu : n < 0x10000000000000000)
    (hr : Halts rest) : readNumber (Nat.toDigits 10 n ++ rest) = some (.integer n, rest) := by
  have hrun := digitRun_append (fun c => isDigit_of_mem_toDigits (n := n)) hr.digit
  have hsign : ∀ s, Nat.toDigits 10 n ++ rest ≠ '-' :: s := by
    intro s hs
    have hm : '-' ∈ Nat.toDigits 10 n := by
      cases hd : Nat.toDigits 10 n with
      | nil => exact absurd hd Nat.toDigits_ne_nil
      | cons c digits =>
        rw [hd] at hs
        exact (List.cons.inj hs).1 ▸ List.mem_cons_self
    exact absurd (isDigit_of_mem_toDigits hm) (by decide)
  unfold readNumber
  split
  next negative s heq =>
    have hs : (false, Nat.toDigits 10 n ++ rest) = (negative, s) := by
      rw [← heq]
      split
      next hm => exact absurd hm (hsign _)
      next => rfl
    obtain ⟨rfl, rfl⟩ := Prod.mk.inj hs
    simp only [hrun, if_neg (toDigits_accepted n), hr.readFraction, hr.readExponent]
    simp [number?, DecimalText.digits, spelled_toDigits, hu]

theorem readNumber_negative {n : Nat} {rest : List Char} (hn : n ≠ 0)
    (hu : n ≤ 0x8000000000000000) (hr : Halts rest) :
    readNumber ('-' :: (Nat.toDigits 10 n ++ rest)) = some (.integer (-n), rest) := by
  have hrun := digitRun_append (fun c => isDigit_of_mem_toDigits (n := n)) hr.digit
  unfold readNumber
  simp only [hrun, if_neg (toDigits_accepted n), hr.readFraction, hr.readExponent]
  simp [number?, DecimalText.digits, spelled_toDigits, hn, hu]

theorem toList_toString_ofNat (n : Nat) : (toString (Int.ofNat n)).toList = Nat.toDigits 10 n := by
  change (toString n).toList = _
  rw [Nat.toString_eq_ofList_toDigits, String.toList_ofList]

theorem toList_toString_negSucc (n : Nat) :
    (toString (Int.negSucc n)).toList = '-' :: Nat.toDigits 10 (n + 1) := by
  change ("-" ++ toString (n + 1)).toList = _
  rw [Nat.toString_eq_ofList_toDigits, String.toList_append]
  simp

theorem readNumber_toString {value : Int} {rest : List Char}
    (hl : -0x8000000000000000 ≤ value) (hu : value < 0x10000000000000000) (hr : Halts rest) :
    readNumber ((toString value).toList ++ rest) = some (.integer value, rest) := by
  cases value with
  | ofNat n =>
    rw [toList_toString_ofNat]
    exact readNumber_natural (Int.ofNat_lt.mp hu) hr
  | negSucc n =>
    rw [toList_toString_negSucc]
    exact readNumber_negative (by omega) (by omega) hr

/-- A number begins with its sign or with a digit. -/
theorem toList_toString_cons (value : Int) :
    ∃ c s, (toString value).toList = c :: s ∧ (c = '-' ∨ isDigit 10 c = true) := by
  cases value with
  | ofNat n =>
    obtain ⟨c, s, hd⟩ := List.exists_cons_of_ne_nil (Nat.toDigits_ne_nil (b := 10) (n := n))
    have hc : c ∈ Nat.toDigits 10 n := hd ▸ List.mem_cons_self
    exact ⟨c, s, (toList_toString_ofNat n).trans hd, Or.inr (isDigit_of_mem_toDigits hc)⟩
  | negSucc n => exact ⟨'-', _, toList_toString_negSucc n, Or.inl rfl⟩

/-- What a number begins with is nothing else that has a meaning. -/
theorem ne_of_numeral {c d : Char} (hc : c = '-' ∨ isDigit 10 c = true)
    (hd : d ≠ '-' ∧ isDigit 10 d = false) : c ≠ d := by
  rintro rfl
  rcases hc with rfl | hc
  · exact hd.1 rfl
  · exact Bool.false_ne_true (hd.2.symm.trans hc)

theorem readValue_number {c : Char} (hc : c = '-' ∨ isDigit 10 c = true) (fuel depth : Nat)
    (s : List Char) : readValue (fuel + 1) depth (c :: s) = readNumber (c :: s) := by
  have other {d : Char} (hd : d ≠ '-' ∧ isDigit 10 d = false) : c ≠ d := ne_of_numeral hc hd
  have hb : skipBlank (c :: s) = c :: s := skipBlank_cons s
    ⟨other (by decide), other (by decide), other (by decide), other (by decide)⟩
  rw [readValue, hb]
  split
  case h_1 heq => exact absurd (List.cons.inj heq).1 (other (by decide))
  case h_2 heq => exact absurd (List.cons.inj heq).1 (other (by decide))
  case h_3 heq => exact absurd (List.cons.inj heq).1 (other (by decide))
  case h_4 heq => exact absurd (List.cons.inj heq).1 (other (by decide))
  case h_5 heq => exact absurd (List.cons.inj heq).1 (other (by decide))
  case h_6 heq => exact absurd (List.cons.inj heq).1 (other (by decide))
  case h_7 => rfl

theorem toList_quoted (text : String) :
    (quoted text).toList = '"' :: (text.toList.flatMap escape ++ ['"']) := by
  rw [quoted, String.toList_ofList]
  rfl

theorem readValue_text (text : String) (fuel depth : Nat) (rest : List Char) :
    readValue (fuel + 1) depth ((quoted text).toList ++ rest) = some (.text text, rest) := by
  have ht := readText_flatMap_escape text.toList rest
  rw [toList_quoted, List.cons_append, List.append_assoc, readValue,
    skipBlank_cons _ (by decide)]
  simp [ht]

section Reading

variable (real : Binary64 → String)

/-- The text of the value is read back, whatever follows that cannot be part of it. -/
def ReadsBack (depth : Nat) (value : Datum) : Prop :=
  ∀ fuel rest, (write real value).toList.length ≤ fuel → Halts rest →
    readValue fuel depth ((write real value).toList ++ rest) = some (value, rest)

variable {real} {depth : Nat}

theorem halts_cons {c : Char} (rest : List Char)
    (h : isDigit 10 c = false ∧ c ≠ '.' ∧ c ≠ 'e' ∧ c ≠ 'E') : Halts (c :: rest) := by
  intro d hd
  obtain rfl := Option.some.inj hd
  exact h

theorem toList_writeItems_nil : (writeItems real []).toList = [']'] := by simp [writeItems]

theorem toList_writeItems_cons (item : Datum) (items : List Datum) :
    (writeItems real (item :: items)).toList =
      ',' :: ((write real item).toList ++ (writeItems real items).toList) := by
  simp [writeItems]

/-- The items of a list are read one after the other, up to the closing bracket. -/
theorem readItems_write {item : Datum} {items : List Datum}
    (h : ∀ value ∈ item :: items, ReadsBack real depth value) (fuel : Nat) (rest : List Char)
    (hf : (write real item).toList.length + (writeItems real items).toList.length ≤ fuel) :
    readItems fuel depth
      ((write real item).toList ++ ((writeItems real items).toList ++ rest)) =
        some (item :: items, rest) := by
  induction items generalizing item fuel with
  | nil =>
    rw [toList_writeItems_nil] at hf ⊢
    rw [List.length_singleton] at hf
    obtain ⟨fuel, rfl⟩ := Nat.exists_eq_add_one_of_ne_zero (n := fuel) (by omega)
    have hv := h item List.mem_cons_self fuel (']' :: rest) (by omega)
      (halts_cons rest (by decide))
    rw [List.singleton_append, readItems, hv]
    simp [skipBlank_cons]
  | cons next items ih =>
    rw [toList_writeItems_cons] at hf ⊢
    rw [List.length_cons, List.length_append] at hf
    obtain ⟨fuel, rfl⟩ := Nat.exists_eq_add_one_of_ne_zero (n := fuel) (by omega)
    have hv := h item List.mem_cons_self fuel (',' :: ((write real next).toList ++
      ((writeItems real items).toList ++ rest))) (by omega) (halts_cons _ (by decide))
    have hi := ih (List.forall_mem_cons.mp h).2 fuel (by omega)
    rw [List.cons_append, List.append_assoc, readItems, hv]
    simp [skipBlank_cons, hi]

theorem toList_writeFields_nil : (writeFields real []).toList = ['\x7d'] := by
  simp [writeFields]

theorem toList_writeFields_cons (key : String) (value : Datum) (fields : List (String × Datum)) :
    (writeFields real ((key, value) :: fields)).toList =
      ',' :: ((quoted key).toList ++
        ':' :: ((write real value).toList ++ (writeFields real fields).toList)) := by
  simp [writeFields]

/-- A field is read and stored in the last place; a comma or the closing brace follows it. -/
theorem readMembers_field {key : String} {value : Datum} {acc : List (String × Datum)}
    (hv : ReadsBack real depth value) (hk : key ∉ acc.map (·.1)) {fuel : Nat}
    (hf : (write real value).toList.length ≤ fuel) (rest : List Char) :
    readMembers (fuel + 1) depth acc
        ((quoted key).toList ++ ':' :: ((write real value).toList ++ ',' :: rest)) =
      readMembers fuel depth (acc ++ [(key, value)]) rest ∧
    readMembers (fuel + 1) depth acc
        ((quoted key).toList ++ ':' :: ((write real value).toList ++ '\x7d' :: rest)) =
      some (acc ++ [(key, value)], rest) := by
  have ht (rest : List Char) :=
    readText_flatMap_escape key.toList (':' :: ((write real value).toList ++ rest))
  constructor
  · have hb := hv fuel (',' :: rest) hf (halts_cons rest (by decide))
    simp [readMembers, toList_quoted, skipBlank_cons, ht, hb, Datum.put_of_notMem hk]
  · have hb := hv fuel ('\x7d' :: rest) hf (halts_cons rest (by decide))
    simp [readMembers, toList_quoted, skipBlank_cons, ht, hb, Datum.put_of_notMem hk]

/-- The fields of a record are read one after the other, up to the closing brace. -/
theorem readMembers_write {key : String} {value : Datum} {acc fields : List (String × Datum)}
    (h : ∀ field ∈ (key, value) :: fields, ReadsBack real depth field.2)
    (hn : ((acc ++ (key, value) :: fields).map (·.1)).Nodup) (fuel : Nat) (rest : List Char)
    (hf : (write real value).toList.length + (writeFields real fields).toList.length ≤ fuel) :
    readMembers fuel depth acc ((quoted key).toList ++
        ':' :: ((write real value).toList ++ ((writeFields real fields).toList ++ rest))) =
      some (acc ++ (key, value) :: fields, rest) := by
  have hk : key ∉ acc.map (·.1) := by
    rw [List.map_append] at hn
    exact fun hm => (List.nodup_append.mp hn).2.2 key hm key List.mem_cons_self rfl
  have hv : ReadsBack real depth value := h (key, value) List.mem_cons_self
  induction fields generalizing key value acc fuel with
  | nil =>
    rw [toList_writeFields_nil] at hf ⊢
    rw [List.length_singleton] at hf
    obtain ⟨fuel, rfl⟩ := Nat.exists_eq_add_one_of_ne_zero (n := fuel) (by omega)
    exact (readMembers_field hv hk (by omega) rest).2
  | cons field fields ih =>
    obtain ⟨nextKey, next⟩ := field
    rw [toList_writeFields_cons] at hf ⊢
    simp only [List.length_cons, List.length_append] at hf
    obtain ⟨fuel, rfl⟩ := Nat.exists_eq_add_one_of_ne_zero (n := fuel) (by omega)
    have hn' : (((acc ++ [(key, value)]) ++ (nextKey, next) :: fields).map (·.1)).Nodup := by
      simpa using hn
    have hk' : nextKey ∉ (acc ++ [(key, value)]).map (·.1) := by
      rw [List.map_append] at hn'
      exact fun hm => (List.nodup_append.mp hn').2.2 nextKey hm nextKey List.mem_cons_self rfl
    have hi := ih (List.forall_mem_cons.mp h).2 hn' fuel (by omega) hk'
      (h (nextKey, next) (by simp))
    rw [List.cons_append, (readMembers_field hv hk (by omega) _).1]
    simpa using hi

/-- A written value begins with a character that a list does not end with. -/
theorem toList_write_cons (real : Binary64 → String) {value : Datum}
    (h : value.Writable depth) :
    ∃ c s, (write real value).toList = c :: s ∧ c ≠ ']' ∧
      c ≠ ' ' ∧ c ≠ '\t' ∧ c ≠ '\n' ∧ c ≠ '\r' := by
  cases h with
  | null => exact ⟨'n', ['u', 'l', 'l'], by simp [write], by decide⟩
  | @flag _ value =>
    cases value with
    | true => exact ⟨'t', ['r', 'u', 'e'], by simp [write], by decide⟩
    | false => exact ⟨'f', ['a', 'l', 's', 'e'], by simp [write], by decide⟩
  | @integer _ value hl hu =>
    obtain ⟨c, s, hs, hc⟩ := toList_toString_cons value
    refine ⟨c, s, by rw [write, hs], ?_⟩
    have other {d : Char} (hd : d ≠ '-' ∧ isDigit 10 d = false) : c ≠ d := ne_of_numeral hc hd
    exact ⟨other (by decide), other (by decide), other (by decide), other (by decide),
      other (by decide)⟩
  | @text _ value => exact ⟨'"', _, by rw [write, toList_quoted], by decide⟩
  | @list _ items h =>
    cases items with
    | nil => exact ⟨'[', [']'], by simp [write], by decide⟩
    | cons item items => exact ⟨'[', _, by simp [write]; rfl, by decide⟩
  | @record _ fields hn h =>
    cases fields with
    | nil => exact ⟨'\x7b', ['\x7d'], by simp [write], by decide⟩
    | cons field fields => exact ⟨'\x7b', _, by simp [write]; rfl, by decide⟩

theorem readsBack_list {items : List Datum} (hw : ∀ item ∈ items, item.Writable depth)
    (h : ∀ item ∈ items, ReadsBack real depth item) :
    ReadsBack real (depth + 1) (.list items) := by
  intro fuel rest hf hr
  cases items with
  | nil =>
    have ht : (write real (.list [])).toList = ['[', ']'] := by simp [write]
    rw [ht] at hf ⊢
    rw [List.length_cons] at hf
    obtain ⟨fuel, rfl⟩ := Nat.exists_eq_add_one_of_ne_zero (n := fuel) (by omega)
    simp [readValue, skipBlank_cons]
  | cons item items =>
    have ht : (write real (.list (item :: items))).toList =
        '[' :: ((write real item).toList ++ (writeItems real items).toList) := by simp [write]
    rw [ht] at hf ⊢
    rw [List.length_cons, List.length_append] at hf
    obtain ⟨fuel, rfl⟩ := Nat.exists_eq_add_one_of_ne_zero (n := fuel) (by omega)
    have hi := readItems_write h fuel rest (by omega)
    obtain ⟨c, s, hc, hb, hs⟩ := toList_write_cons real (hw item List.mem_cons_self)
    rw [List.cons_append, List.append_assoc, readValue, skipBlank_cons _ (by decide)]
    rw [hc, List.cons_append] at hi ⊢
    simp [skipBlank_cons _ hs, hb, hi]

theorem readsBack_record {fields : List (String × Datum)} (hn : (fields.map (·.1)).Nodup)
    (h : ∀ field ∈ fields, ReadsBack real depth field.2) :
    ReadsBack real (depth + 1) (.record fields) := by
  intro fuel rest hf hr
  cases fields with
  | nil =>
    have ht : (write real (.record [])).toList = ['\x7b', '\x7d'] := by simp [write]
    rw [ht] at hf ⊢
    rw [List.length_cons] at hf
    obtain ⟨fuel, rfl⟩ := Nat.exists_eq_add_one_of_ne_zero (n := fuel) (by omega)
    simp [readValue, skipBlank_cons]
  | cons field fields =>
    obtain ⟨key, value⟩ := field
    have ht : (write real (.record ((key, value) :: fields))).toList =
        '\x7b' :: ((quoted key).toList ++
          ':' :: ((write real value).toList ++ (writeFields real fields).toList)) := by
      simp [write]
    rw [ht] at hf ⊢
    simp only [List.length_cons, List.length_append] at hf
    obtain ⟨fuel, rfl⟩ := Nat.exists_eq_add_one_of_ne_zero (n := fuel) (by omega)
    have hm : readMembers fuel depth [] _ = some ([] ++ (key, value) :: fields, rest) :=
      readMembers_write h hn fuel rest (by omega)
    rw [List.cons_append, List.append_assoc, List.cons_append, List.append_assoc, readValue,
      skipBlank_cons _ (by decide)]
    rw [toList_quoted, List.cons_append] at hm ⊢
    simpa [skipBlank_cons] using hm

theorem readsBack_of_writable {value : Datum} (h : value.Writable depth) :
    ReadsBack real depth value := by
  induction h with
  | null =>
    intro fuel rest hf hr
    have ht : (write real .null).toList = ['n', 'u', 'l', 'l'] := by simp [write]
    rw [ht] at hf ⊢
    rw [List.length_cons] at hf
    obtain ⟨fuel, rfl⟩ := Nat.exists_eq_add_one_of_ne_zero (n := fuel) (by omega)
    simp [readValue, skipBlank_cons]
  | @flag depth value =>
    intro fuel rest hf hr
    have ht : (write real (.flag value)).toList =
        if value then ['t', 'r', 'u', 'e'] else ['f', 'a', 'l', 's', 'e'] := by
      cases value <;> simp [write]
    rw [ht] at hf ⊢
    obtain ⟨fuel, rfl⟩ : ∃ less, fuel = less + 1 :=
      ⟨fuel - 1, by cases value <;> simp at hf <;> omega⟩
    cases value <;> simp [readValue, skipBlank_cons]
  | @integer depth value hl hu =>
    intro fuel rest hf hr
    obtain ⟨c, s, hs, hc⟩ := toList_toString_cons value
    have hn := readNumber_toString hl hu hr
    rw [write] at hf ⊢
    rw [hs] at hf hn ⊢
    rw [List.length_cons] at hf
    obtain ⟨fuel, rfl⟩ := Nat.exists_eq_add_one_of_ne_zero (n := fuel) (by omega)
    rw [List.cons_append] at hn ⊢
    rw [readValue_number hc, hn]
  | @text depth value =>
    intro fuel rest hf hr
    rw [write] at hf ⊢
    have hp : 0 < (quoted value).toList.length := by simp [toList_quoted]
    obtain ⟨fuel, rfl⟩ := Nat.exists_eq_add_one_of_ne_zero (n := fuel) (by omega)
    exact readValue_text value fuel depth rest
  | list h ih => exact readsBack_list h ih
  | record hn h ih => exact readsBack_record hn ih

end Reading

/-- The text of a value without loss is read as that value. -/
theorem read?_write (real : Binary64 → String) {value : Datum} (h : value.Writable maxDepth) :
    read? (write real value) = some value := by
  have hb : ReadsBack real maxDepth value := readsBack_of_writable h
  have hv := hb (2 * (write real value).toList.length + 2) [] (by omega) (by simp [Halts])
  rw [List.append_nil] at hv
  simp [read?, hv, skipBlank]

end Json

end MediaSession
