import SearchBar.Proofs.Numerals
import SearchBar.Text.LineNumber

/-! The line that a text cites.
It is cited by the word for a line in letters of either case, one space, and digits of any script.
Of several lines that are cited the first one counts, wherever it stands. So a text that is put
together of pieces cites the line of the first piece that cites one, as long as no citation begins
in a piece and ends behind it. -/
namespace SearchBar.Text

def IsLineWord : Text → Prop
  | [l, i, n, e] => sameLetter 'l' l = true ∧ sameLetter 'i' i = true ∧
      sameLetter 'n' n = true ∧ sameLetter 'e' e = true
  | _ => False

/-- A text begins with the word for a line and goes on with a space and these digits. What follows
is no further digit. -/
def BeginsCiting (text digits : Text) : Prop :=
  ∃ word rest, text = word ++ ' ' :: digits ++ rest ∧ IsLineWord word ∧ digits ≠ [] ∧
    (∀ c ∈ digits, (digitValue? c).isSome = true) ∧
    ∀ c ∈ rest.head?, (digitValue? c).isSome = false

/-- At the first place where a text cites a line, the number of the line is written by these
digits. -/
def Cites (text digits : Text) : Prop :=
  ∃ n, BeginsCiting (text.drop n) digits ∧ ∀ m < n, ∀ others, ¬ BeginsCiting (text.drop m) others

variable {c : Char} {text front back rest digits : Text}

theorem afterLine?_eq_some_iff :
    afterLine? text = some rest ↔ ∃ word, IsLineWord word ∧ text = word ++ ' ' :: rest := by
  constructor
  · intro found
    unfold afterLine? at found
    split at found
    · next l i n e behind =>
      split at found
      · next letters =>
        simp only [Bool.and_eq_true, and_assoc] at letters
        exact ⟨[l, i, n, e], letters, by rw [← Option.some.inj found]; rfl⟩
      · cases found
    · cases found
  · rintro ⟨word, letters, rfl⟩
    unfold IsLineWord at letters
    split at letters
    · next l i n e =>
      obtain ⟨first, second, third, fourth⟩ := letters
      simp [afterLine?, first, second, third, fourth]
    · cases letters

theorem takeWhile_eq_iff {p : Char → Bool} :
    text.takeWhile p = front ↔
      ∃ back, text = front ++ back ∧ (∀ c ∈ front, p c = true) ∧ ∀ c ∈ back.head?, p c = false := by
  constructor
  · rintro rfl
    have first := List.head?_dropWhile_not p text
    refine ⟨text.dropWhile p, List.takeWhile_append_dropWhile.symm,
      List.all_eq_true.mp List.all_takeWhile, fun c head => ?_⟩
    rw [Option.mem_def.mp head] at first
    exact first
  · rintro ⟨back, rfl, inside, behind⟩
    have stop : back.takeWhile p = [] := by
      cases back with
      | nil => rfl
      | cons c back => exact List.takeWhile_cons_of_neg (by simp [behind c rfl])
    rw [List.takeWhile_append_of_pos inside, stop, List.append_nil]

def beginning? (text : Text) : Option Text :=
  match ((afterLine? text).getD []).takeWhile fun d => (digitValue? d).isSome with
  | [] => none
  | digits => some digits

theorem lineDigits?_cons (c : Char) (rest : Text) :
    lineDigits? (c :: rest) = (beginning? (c :: rest)).or (lineDigits? rest) := by
  rw [lineDigits?, beginning?]
  cases ((afterLine? (c :: rest)).getD []).takeWhile fun d => (digitValue? d).isSome <;> rfl

theorem beginning?_eq_some_iff : beginning? text = some digits ↔ BeginsCiting text digits := by
  have found : beginning? text = some digits ↔ digits ≠ [] ∧
      ((afterLine? text).getD []).takeWhile (fun d => (digitValue? d).isSome) = digits := by
    unfold beginning?
    split
    · next none_found => simp [none_found, eq_comm]
    · next some_found => simpa using fun same => same ▸ some_found
  rw [found]
  constructor
  · rintro ⟨nonempty, own⟩
    obtain ⟨rest, behind, inside, outside⟩ := takeWhile_eq_iff.mp own
    cases after : afterLine? text with
    | none =>
      rw [after] at behind
      exact absurd (List.append_eq_nil_iff.mp behind.symm).1 nonempty
    | some more =>
      rw [after] at behind
      obtain ⟨word, letters, rfl⟩ := afterLine?_eq_some_iff.mp after
      refine ⟨word, rest, ?_, letters, nonempty, inside, outside⟩
      rw [List.append_assoc, List.cons_append, ← behind]
      rfl
  · rintro ⟨word, rest, rfl, letters, nonempty, inside, outside⟩
    have after : afterLine? (word ++ ' ' :: digits ++ rest) = some (digits ++ rest) :=
      afterLine?_eq_some_iff.mpr ⟨word, letters, by simp⟩
    rw [after]
    exact ⟨nonempty, takeWhile_eq_iff.mpr ⟨rest, rfl, inside, outside⟩⟩

theorem cites_cons_iff : Cites (c :: rest) digits ↔ BeginsCiting (c :: rest) digits ∨
    (∀ others, ¬ BeginsCiting (c :: rest) others) ∧ Cites rest digits := by
  constructor
  · rintro ⟨n, begins, earlier⟩
    cases n with
    | zero => exact .inl begins
    | succ n =>
      exact .inr ⟨earlier 0 n.succ_pos, n, begins, fun m below => earlier (m + 1) (by omega)⟩
  · rintro (begins | ⟨none_here, n, begins, earlier⟩)
    · exact ⟨0, begins, fun m below => absurd below m.not_lt_zero⟩
    · refine ⟨n + 1, begins, fun m below => ?_⟩
      cases m with
      | zero => exact none_here
      | succ m => exact earlier m (by omega)

theorem lineDigits?_eq_some_iff : lineDigits? text = some digits ↔ Cites text digits := by
  induction text with
  | nil =>
    refine iff_of_false nofun ?_
    rintro ⟨n, begins, -⟩
    rw [List.drop_nil] at begins
    cases beginning?_eq_some_iff.mpr begins
  | cons c rest ih =>
    rw [lineDigits?_cons, Option.or_eq_some_iff, cites_cons_iff, ih, beginning?_eq_some_iff,
      Option.eq_none_iff_forall_ne_some]
    simp only [ne_eq, beginning?_eq_some_iff]

theorem lineDigits?_eq_none_iff : lineDigits? text = none ↔ ∀ digits, ¬ Cites text digits := by
  simp only [Option.eq_none_iff_forall_ne_some, ne_eq, lineDigits?_eq_some_iff]

theorem Cites.unique {others : Text} (cited : Cites text digits) (again : Cites text others) :
    digits = others :=
  have found := lineDigits?_eq_some_iff.mpr cited
  Option.some.inj (found.symm.trans (lineDigits?_eq_some_iff.mpr again))

instance (text digits : Text) : Decidable (Cites text digits) :=
  decidable_of_iff _ lineDigits?_eq_some_iff

example : Cites "page 9, LINE 12, line 3".toList ['1', '2'] := by decide

def isCiting (c : Char) : Bool :=
  sameLetter 'l' c || sameLetter 'i' c || sameLetter 'n' c || sameLetter 'e' c || c == ' ' ||
    (digitValue? c).isSome

/-- No digit comes before the first character that no citation is made of, so a citation that ends
here begins here as well. -/
def Detached (back : Text) : Prop :=
  ∀ c ∈ back.takeWhile isCiting, (digitValue? c).isSome = false

instance : DecidablePred Detached :=
  fun _ => List.decidableBAll _ _

theorem detached_cons (foreign : isCiting c = false) (rest : Text) : Detached (c :: rest) := by
  intro d member
  rw [List.takeWhile_cons_of_neg (by simp [foreign])] at member
  cases member

theorem isCiting_of_digitValue? (digit : (digitValue? c).isSome = true) : isCiting c = true := by
  simp [isCiting, digit]

theorem isCiting_of_citation {word : Text} (letters : IsLineWord word)
    (inside : ∀ c ∈ digits, (digitValue? c).isSome = true) :
    ∀ c ∈ word ++ ' ' :: digits, isCiting c = true := by
  unfold IsLineWord at letters
  split at letters
  · next l i n e =>
    obtain ⟨first, second, third, fourth⟩ := letters
    have own : ∀ c ∈ digits, isCiting c = true :=
      fun c member => isCiting_of_digitValue? (inside c member)
    simpa [isCiting, first, second, third, fourth] using own
  · cases letters

theorem Detached.head? (detached : Detached back) :
    ∀ c ∈ back.head?, (digitValue? c).isSome = false := by
  intro c head
  cases back with
  | nil => cases head
  | cons d rest =>
    obtain rfl := Option.some.inj head
    by_contra digit
    rw [Bool.not_eq_false] at digit
    have member : d ∈ (d :: rest).takeWhile isCiting := by
      rw [List.takeWhile_cons_of_pos (isCiting_of_digitValue? digit)]
      exact List.mem_cons_self
    exact Bool.noConfusion (digit.symm.trans (detached d member))

theorem Detached.eq_nil_of_citation {extra : Text} (detached : Detached (extra ++ rest))
    (citing : ∀ c ∈ front ++ extra, isCiting c = true)
    (digit : ∀ c ∈ (front ++ extra).getLast?, (digitValue? c).isSome = true) : extra = [] := by
  obtain rfl | ⟨most, last, rfl⟩ := List.eq_nil_or_concat extra
  · rfl
  · rw [List.concat_eq_append] at detached citing digit
    have early : last ∈ (most ++ [last] ++ rest).takeWhile isCiting := by
      rw [List.takeWhile_append_of_pos fun c member => citing c (List.mem_append_right _ member)]
      simp
    have own := digit last (by simp)
    exact absurd (own.symm.trans (detached last early)) Bool.noConfusion

theorem Detached.beginsCiting_append_iff (detached : Detached back) :
    BeginsCiting (front ++ back) digits ↔ BeginsCiting front digits := by
  constructor
  · rintro ⟨word, rest, cut, letters, nonempty, inside, outside⟩
    obtain ⟨extra, cited, rfl⟩ | ⟨extra, rfl, rfl⟩ := List.append_eq_append_iff.mp cut
    · have citing := isCiting_of_citation letters inside
      have last : ∀ c ∈ (word ++ ' ' :: digits).getLast?, (digitValue? c).isSome = true := by
        intro c ends
        rw [List.getLast?_append_cons, List.getLast?_cons_of_ne_nil nonempty] at ends
        exact inside c (List.mem_of_getLast? ends)
      rw [cited] at citing last
      obtain rfl := detached.eq_nil_of_citation citing last
      rw [List.append_nil] at cited
      exact ⟨word, [], by rw [List.append_nil, cited], letters, nonempty, inside, nofun⟩
    · refine ⟨word, extra, rfl, letters, nonempty, inside, fun c head => outside c ?_⟩
      exact List.mem_head?_append_of_mem_head? head
  · rintro ⟨word, rest, rfl, letters, nonempty, inside, outside⟩
    refine ⟨word, rest ++ back, List.append_assoc _ _ _, letters, nonempty, inside, ?_⟩
    cases rest with
    | nil => exact detached.head?
    | cons c rest => exact outside

theorem Detached.lineDigits?_append (detached : Detached back) :
    lineDigits? (front ++ back) = (lineDigits? front).or (lineDigits? back) := by
  induction front with
  | nil => rfl
  | cons c front ih =>
    have here : beginning? (c :: front ++ back) = beginning? (c :: front) :=
      Option.ext fun digits => by
        rw [beginning?_eq_some_iff, beginning?_eq_some_iff, detached.beginsCiting_append_iff]
    rw [List.cons_append, lineDigits?_cons, ← List.cons_append, here, ih, lineDigits?_cons,
      Option.or_assoc]

theorem Detached.lineDigits?_append_right (detached : Detached back)
    (silent : lineDigits? front = none) : lineDigits? (front ++ back) = lineDigits? back := by
  rw [detached.lineDigits?_append, silent]
  rfl

theorem Detached.lineDigits?_append_left (detached : Detached back)
    (silent : lineDigits? back = none) : lineDigits? (front ++ back) = lineDigits? front := by
  rw [detached.lineDigits?_append, silent, Option.or_none]

theorem beginning?_of_ne (other : sameLetter 'l' c = false) : beginning? (c :: rest) = none := by
  refine Option.eq_none_iff_forall_ne_some.mpr fun digits begins => ?_
  obtain ⟨word, more, same, letters, -⟩ := beginning?_eq_some_iff.mp begins
  unfold IsLineWord at letters
  split at letters
  · obtain rfl := (List.cons.inj same).1
    exact Bool.noConfusion (letters.1.symm.trans other)
  · cases letters

theorem lineDigits?_cons_of_ne (other : sameLetter 'l' c = false) :
    lineDigits? (c :: rest) = lineDigits? rest := by
  rw [lineDigits?_cons, beginning?_of_ne other]
  rfl

def isWordless (text : Text) : Bool :=
  text.all fun c => !sameLetter 'l' c

theorem lineDigits?_append_of_isWordless (wordless : isWordless front = true) :
    lineDigits? (front ++ back) = lineDigits? back := by
  induction front with
  | nil => rfl
  | cons c front ih =>
    obtain ⟨first, others⟩ := Bool.and_eq_true_iff.mp wordless
    rw [Bool.not_eq_true'] at first
    rw [List.cons_append, lineDigits?_cons_of_ne first, ih others]

theorem ne_of_not_isCiting (foreign : isCiting c = false) : sameLetter 'l' c = false := by
  simp only [isCiting, Bool.or_eq_false_iff] at foreign
  exact foreign.1.1.1.1.1

theorem lineDigits?_append_cons (foreign : isCiting c = false) :
    lineDigits? (front ++ c :: back) = (lineDigits? front).or (lineDigits? back) := by
  rw [(detached_cons foreign back).lineDigits?_append,
    lineDigits?_cons_of_ne (ne_of_not_isCiting foreign)]

theorem lineDigits?_intercalate (pieces : List Text) :
    lineDigits? ([',', ' '].intercalate pieces) = pieces.findSome? lineDigits? := by
  induction pieces with
  | nil => rfl
  | cons piece pieces ih =>
    cases pieces with
    | nil => simp
    | cons next pieces =>
      calc lineDigits? ([',', ' '].intercalate (piece :: next :: pieces))
          = lineDigits? (piece ++ ',' :: ' ' :: [',', ' '].intercalate (next :: pieces)) := by
            rw [List.intercalate_cons_cons, List.append_assoc]
            rfl
        _ = (lineDigits? piece).or (lineDigits? ([',', ' '].intercalate (next :: pieces))) := by
            rw [lineDigits?_append_cons (by decide), lineDigits?_cons_of_ne (by decide)]
        _ = (piece :: next :: pieces).findSome? lineDigits? := by
            rw [ih]
            cases own : lineDigits? piece <;> simp [own]

/-- Characters that no citation is made of can be written in other ways, as long as these begin
with such a character too and no word for a line comes up behind it. -/
theorem lineDigits?_flatMap {f : Char → Text} (kept : ∀ c, isCiting c = true → f c = [c])
    (foreign : ∀ c, isCiting c = false →
      ∃ d more, f c = d :: more ∧ isCiting d = false ∧ isWordless more = true)
    (text : Text) : lineDigits? (text.flatMap f) = lineDigits? text := by
  -- what has been read is kept in front, as a citation may go on from there
  suffices behind : ∀ front,
      lineDigits? (front ++ text.flatMap f) = lineDigits? (front ++ text) from behind []
  induction text with
  | nil => exact fun front => rfl
  | cons c rest ih =>
    intro front
    rw [List.flatMap_cons]
    cases own : isCiting c with
    | true =>
      calc lineDigits? (front ++ (f c ++ rest.flatMap f))
          = lineDigits? ((front ++ [c]) ++ rest.flatMap f) := by rw [kept c own, List.append_assoc]
        _ = lineDigits? ((front ++ [c]) ++ rest) := ih (front ++ [c])
        _ = lineDigits? (front ++ c :: rest) := by rw [List.append_assoc, List.singleton_append]
    | false =>
      obtain ⟨d, more, written, apart, wordless⟩ := foreign c own
      calc lineDigits? (front ++ (f c ++ rest.flatMap f))
          = (lineDigits? front).or (lineDigits? (more ++ rest.flatMap f)) := by
            rw [written, List.cons_append, lineDigits?_append_cons apart]
        _ = (lineDigits? front).or (lineDigits? rest) := by
            rw [lineDigits?_append_of_isWordless wordless]
            exact congrArg _ (ih [])
        _ = lineDigits? (front ++ c :: rest) := (lineDigits?_append_cons own).symm

theorem lineNumber?_eq (message : Text) : lineNumber? message =
    match lineDigits? message with
    | none => .ok none
    | some digits =>
      if digits.length ≤ longestInteger then .ok (some (numberIn digits : Int))
      else .error .tooLong := by
  unfold lineNumber?
  cases found : lineDigits? message with
  | none => rfl
  | some digits =>
    obtain ⟨n, ⟨word, rest, -, -, nonempty, inside, -⟩, -⟩ := lineDigits?_eq_some_iff.mp found
    simp only [readInteger_of_digitValue? inside nonempty]
    split <;> rfl

end SearchBar.Text
