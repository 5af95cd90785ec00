import Screencast.Proofs.Json.Numbers

/-!
The reader of JSON text takes back what the writer of indented text has written: every value whose
texts are plain, whose objects have each key once and whose whole numbers are not too long.
-/

namespace Screencast

namespace Table

variable {κ ν : Type} [DecidableEq κ]

theorem put_of_notMem {key : κ} {table : Table κ ν} (absent : key ∉ table.map (·.1)) (value : ν) :
    put key value table = table ++ [(key, value)] := by
  induction table with
  | nil => rfl
  | cons entry table ih =>
    have other : entry.1 ≠ key := fun same => absent (by simp [same])
    rw [put, if_neg other, ih fun member => absent (List.mem_cons_of_mem _ member)]
    rfl

theorem ofList_of_nodup {entries : Table κ ν} (distinct : (entries.map (·.1)).Nodup) :
    ofList entries = entries := by
  induction entries using List.reverseRecOn with
  | nil => rfl
  | append_singleton entries entry ih =>
    rw [List.map_append, List.nodup_append] at distinct
    have absent : entry.1 ∉ entries.map (·.1) := fun member =>
      distinct.2.2 _ member _ (by simp) rfl
    have before := ih distinct.1
    unfold ofList at before ⊢
    rw [List.foldl_append, before]
    exact put_of_notMem absent entry.2

end Table

end Screencast

namespace Screencast.Json

open Shortest

namespace Reader

variable {depth : Nat} {rest : List Char}

/-- What starts with a digit is read as a number; no other value starts so. -/
theorem value_digit {c : Char} (digit : c.isDigit = true) :
    value (depth + 1) (c :: rest) = number (c :: rest) := by
  rw [value] <;>
  · rintro _ ⟨⟩
    exact absurd digit (by decide)

theorem value_minus {c : Char} (digit : c.isDigit = true) :
    value (depth + 1) ('-' :: c :: rest) = number ('-' :: c :: rest) := by
  rw [value] <;> rintro _ ⟨⟩
  exact absurd digit (by decide)

theorem skip_of_solid (solid : ∀ c ∈ rest.head?, isBlank c = false) : skip rest = rest := by
  cases rest with
  | nil => rfl
  | cons c rest => exact List.dropWhile_cons_of_neg (by simp [solid c rfl])

theorem skip_newline (solid : ∀ c ∈ rest.head?, isBlank c = false) (level : Nat) :
    skip (newline level ++ rest) = rest := by
  have blanks : ∀ c ∈ newline level, isBlank c = true := by
    intro c member
    rcases List.mem_cons.mp member with rfl | space
    · rfl
    · rw [List.eq_of_mem_replicate space]
      rfl
  exact (span_append blanks solid).2

theorem skip_space (solid : ∀ c ∈ rest.head?, isBlank c = false) : skip (' ' :: rest) = rest :=
  (List.dropWhile_cons_of_pos rfl).trans (skip_of_solid solid)

def IsPlain (c : Char) : Prop :=
  (0x20 ≤ c.toNat ∧ c.toNat < 0x7F) ∧ c ≠ '"' ∧ c ≠ '\\'

instance (c : Char) : Decidable (IsPlain c) :=
  inferInstanceAs (Decidable ((0x20 ≤ c.toNat ∧ c.toNat < 0x7F) ∧ c ≠ '"' ∧ c ≠ '\\'))

def IsPlainText (s : String) : Prop :=
  ∀ c ∈ s.toList, IsPlain c

instance (s : String) : Decidable (IsPlainText s) :=
  List.decidableBAll IsPlain s.toList

theorem charText_of_isPlain {c : Char} (plain : IsPlain c) : charText c = [c] := by
  obtain ⟨⟨lower, upper⟩, quote, slash⟩ := plain
  have other : ∀ {control : Char}, control.toNat < 0x20 → c ≠ control := by
    rintro control below rfl
    omega
  have below : c.val < 0x7F := UInt32.lt_iff_toNat_lt.mpr upper
  have inside : ¬ (c.val < 0x20 ∨ 0x7F ≤ c.val ∧ c.val < 0x10000) := by
    rintro (control | ⟨above, -⟩)
    · exact absurd (UInt32.lt_iff_toNat_lt.mp control) (not_lt.mpr lower)
    · exact absurd below (UInt32.not_lt.mpr above)
  unfold charText
  rw [if_neg quote, if_neg slash, if_neg (other (by decide)), if_neg (other (by decide)),
    if_neg (other (by decide)), if_neg (other (by decide)), if_neg (other (by decide)),
    if_neg inside, if_pos below]

theorem body_cons {c : Char} (plain : IsPlain c) :
    body (c :: rest) = (body rest).map (cons c) := by
  obtain ⟨⟨lower, -⟩, quote, slash⟩ := plain
  rw [body]
  · have printed : ¬ c.val < 0x20 := fun control =>
      absurd (UInt32.lt_iff_toNat_lt.mp control) (not_lt.mpr lower)
    rw [if_neg printed]
  · exact fun same => quote same
  · exact fun _ _ _ _ _ same => absurd same slash
  · exact fun _ _ same => absurd same slash

theorem body_append {cs : List Char} (plain : ∀ c ∈ cs, IsPlain c) :
    body (cs ++ '"' :: rest) = .ok (cs, rest) := by
  induction cs with
  | nil => rw [List.nil_append, body]
  | cons c cs ih =>
    rw [List.cons_append, body_cons (plain c (by simp)),
      ih fun d member => plain d (List.mem_cons_of_mem c member)]
    rfl

theorem stringText_of_isPlain {s : String} (plain : IsPlainText s) :
    stringText s = '"' :: (s.toList ++ ['"']) := by
  have same : s.toList.flatMap charText = s.toList := by
    unfold IsPlainText at plain
    generalize s.toList = cs at plain
    induction cs with
    | nil => rfl
    | cons c cs ih =>
      rw [List.flatMap_cons, charText_of_isPlain (plain c (by simp)),
        ih fun d member => plain d (List.mem_cons_of_mem c member)]
      rfl
  unfold stringText
  rw [same]
  rfl

section Steps

variable {s left more : List Char} {x : Json}

theorem value_string {cs : List Char} (read : body s = .ok (cs, left)) :
    value (depth + 1) ('"' :: s) = .ok (.string (String.ofList cs), left) := by
  rw [value, read]
  rfl

theorem items_last (first : value depth s = .ok (x, left)) (closes : skip left = ']' :: rest) :
    items (depth + 1) s = .ok ([x], rest) := by
  rw [items, first]
  simp only [bind, Except.bind, closes]
  rfl

theorem items_more {xs : List Json} (first : value depth s = .ok (x, left))
    (comma : skip left = ',' :: more) (others : items depth (skip more) = .ok (xs, rest)) :
    items (depth + 1) s = .ok (x :: xs, rest) := by
  rw [items, first]
  simp only [bind, Except.bind, comma, others]
  rfl

theorem value_array {xs : List Json} (opens : skip s = more) (filled : more.head? ≠ some ']')
    (read : items depth more = .ok (xs, rest)) :
    value (depth + 1) ('[' :: s) = .ok (.array xs, rest) := by
  rw [value, opens]
  split
  · exact absurd rfl filled
  · rw [read]
    rfl

theorem members_last {key : List Char} (name : body s = .ok (key, left))
    (colon : skip left = ':' :: more) {after : List Char}
    (first : value depth (skip more) = .ok (x, after)) (closes : skip after = '\x7d' :: rest) :
    members (depth + 1) ('"' :: s) = .ok ([(String.ofList key, x)], rest) := by
  rw [members, name]
  simp only [bind, Except.bind, colon, first, closes]
  rfl

theorem members_more {key : List Char} (name : body s = .ok (key, left))
    (colon : skip left = ':' :: more) {after others : List Char} {table : List (String × Json)}
    (first : value depth (skip more) = .ok (x, after)) (comma : skip after = ',' :: others)
    (read : members depth (skip others) = .ok (table, rest)) :
    members (depth + 1) ('"' :: s) = .ok ((String.ofList key, x) :: table, rest) := by
  rw [members, name]
  simp only [bind, Except.bind, colon, first, comma, read]
  rfl

theorem value_object {table : List (String × Json)} (opens : skip s = more)
    (filled : more.head? ≠ some '\x7d') (read : members depth more = .ok (table, rest)) :
    value (depth + 1) ('\x7b' :: s) = .ok (ofMembers table, rest) := by
  rw [value, opens]
  split
  · exact absurd rfl filled
  · rw [read]
    rfl

end Steps

end Reader

open Reader

/-- Whether a text is read as a value, whatever stands behind it. -/
structure Reads (text : List Char) (value : Json) : Prop where
  some : text ≠ []
  solid : ∀ c ∈ text.head?, isBlank c = false ∧ c ≠ ']'
  read : ∀ depth, text.length ≤ depth → ∀ rest, Ends rest →
    Reader.value depth (text ++ rest) = .ok (value, rest)

theorem Reads.solid_append {text rest : List Char} {value : Json} (reads : Reads text value) :
    ∀ c ∈ (text ++ rest).head?, isBlank c = false ∧ c ≠ ']' := by
  obtain ⟨c, others, rfl⟩ := List.exists_cons_of_ne_nil reads.some
  exact reads.solid

theorem reads_of_cons {c : Char} {others : List Char} {value : Json}
    (solid : isBlank c = false ∧ c ≠ ']')
    (read : ∀ depth, others.length ≤ depth → ∀ rest, Ends rest →
      Reader.value (depth + 1) (c :: (others ++ rest)) = .ok (value, rest)) :
    Reads (c :: others) value := by
  refine ⟨List.cons_ne_nil c others, ?_, ?_⟩
  · rintro d ⟨⟩
    exact solid
  · intro depth enough rest ends
    obtain ⟨steps, rfl⟩ : ∃ steps, depth = steps + 1 :=
      ⟨depth - 1, by rw [List.length_cons] at enough; omega⟩
    exact read steps (by simpa using enough) rest ends

theorem reads_null : Reads "null".toList .null :=
  reads_of_cons (by decide) fun _ _ _ _ => rfl

theorem reads_bool (b : Bool) : Reads (compactChars (.bool b)) (.bool b) := by
  cases b <;> exact reads_of_cons (by decide) fun _ _ _ _ => rfl

theorem reads_string {s : String} (plain : IsPlainText s) :
    Reads (stringText s) (.string s) := by
  rw [stringText_of_isPlain plain]
  apply reads_of_cons (by decide)
  intro depth _ rest _
  have read : Reader.value (depth + 1) ('"' :: (s.toList ++ '"' :: rest)) =
      .ok (string (String.ofList s.toList), rest) := value_string (body_append plain)
  rw [String.ofList_toList] at read
  rw [List.append_assoc]
  exact read

theorem reads_number {negative : Bool} {ds : List Char} {value : Json}
    (digit : ∃ c others, ds = c :: others ∧ c.isDigit = true)
    (read : ∀ rest, Ends rest → number (signChars negative ++ ds ++ rest) = .ok (value, rest)) :
    Reads (signChars negative ++ ds) value := by
  obtain ⟨c, others, rfl, digit⟩ := digit
  have notBlank : isBlank c = false := by
    simp [isBlank, NumberText.ne_of_isDigit digit (by decide : (' ' : Char).isDigit = false),
      NumberText.ne_of_isDigit digit (by decide : ('\t' : Char).isDigit = false),
      NumberText.ne_of_isDigit digit (by decide : ('\n' : Char).isDigit = false),
      NumberText.ne_of_isDigit digit (by decide : ('\r' : Char).isDigit = false)]
  cases negative with
  | false =>
    apply reads_of_cons ⟨notBlank, NumberText.ne_of_isDigit digit (by decide)⟩
    intro depth _ rest ends
    rw [value_digit digit]
    exact read rest ends
  | true =>
    apply reads_of_cons (by decide)
    intro depth _ rest ends
    change Reader.value (depth + 1) ('-' :: c :: (others ++ rest)) = _
    rw [value_minus digit]
    exact read rest ends

theorem reads_int {n : Int} (short : (Nat.toDigits 10 n.natAbs).length ≤ 4300) :
    Reads (intChars n) (.int n) := by
  obtain ⟨c, others, same⟩ :=
    List.exists_cons_of_ne_nil (Nat.toDigits_ne_nil (n := n.natAbs) (b := 10))
  rw [intChars_eq]
  apply reads_number
  · refine ⟨c, others, same, Text.isDigit_of_mem_toDigits (n := n.natAbs) ?_⟩
    rw [same]
    exact List.mem_cons_self
  · intro rest ends
    rw [← intChars_eq]
    exact number_int short ends

theorem reads_infinity (negative : Bool) :
    Reads (if negative then "-Infinity".toList else "Infinity".toList)
      (.float (Binary.infinity negative)) := by
  cases negative with
  | false =>
    change Reads ['I', 'n', 'f', 'i', 'n', 'i', 't', 'y'] _
    apply reads_of_cons (by decide)
    intro depth _ rest _
    simp only [List.cons_append, List.nil_append]
    rw [Reader.value]
  | true =>
    change Reads ['-', 'I', 'n', 'f', 'i', 'n', 'i', 't', 'y'] _
    apply reads_of_cons (by decide)
    intro depth _ rest _
    simp only [List.cons_append, List.nil_append]
    rw [Reader.value]

theorem reads_nan : Reads "NaN".toList (.float Binary.nan) := by
  change Reads ['N', 'a', 'N'] _
  apply reads_of_cons (by decide)
  intro depth _ rest _
  simp only [List.cons_append, List.nil_append]
  rw [Reader.value]

/-- Every number is read back, those that are not finite by their names. -/
theorem reads_float (x : Float) : Reads (floatChars x) (.float x) := by
  obtain ⟨⟨negative, exponent, mantissa⟩, fields⟩ : ∃ parts, Binary.fields x = parts := ⟨_, rfl⟩
  unfold floatChars Binary.exact
  rw [fields]
  dsimp only
  by_cases top : exponent = twoTo 11 - 1
  · rw [if_pos top]
    by_cases none : mantissa = 0
    · rw [if_pos none, ← infinity_eq fields top none]
      exact reads_infinity negative
    · rw [if_neg none, ← nan_eq fields top none]
      exact reads_nan
  · obtain ⟨parts, writes⟩ := exists_writes fields top
    have reads : Reads (Shortest.chars x) (.float x) := by
      rw [writes.chars]
      apply reads_number (NumberText.exists_digit writes.plain)
      intro rest ends
      rw [← writes.chars]
      exact number_float writes ends
    rw [if_neg top]
    split
    · next odd => split at odd <;> cases odd
    · next odd => split at odd <;> cases odd
    · exact reads

theorem indentedItems_cons_cons (level : Nat) (x y : Json) (ys : List Json) :
    indentedItems level (x :: y :: ys) = x.indentedChars level ++
      (',' :: (newline level ++ indentedItems level (y :: ys))) := by
  rw [indentedItems]
  · simp
  · exact List.cons_ne_nil y ys

theorem solid_items {level : Nat} {xs : List Json} (filled : xs ≠ [])
    (reads : ∀ x ∈ xs, Reads (x.indentedChars level) x) (rest : List Char) :
    ∀ c ∈ (indentedItems level xs ++ rest).head?, isBlank c = false ∧ c ≠ ']' := by
  cases xs with
  | nil => exact absurd rfl filled
  | cons x xs =>
    have first := reads x (by simp)
    cases xs with
    | nil => exact first.solid_append
    | cons y ys =>
      rw [indentedItems_cons_cons, List.append_assoc]
      exact first.solid_append

theorem items_append {level : Nat} {xs : List Json} (filled : xs ≠ [])
    (reads : ∀ x ∈ xs, Reads (x.indentedChars level) x) {depth : Nat}
    (enough : (indentedItems level xs).length < depth) (outer : Nat) (rest : List Char) :
    items depth (indentedItems level xs ++ (newline outer ++ ']' :: rest)) = .ok (xs, rest) := by
  induction xs generalizing depth with
  | nil => exact absurd rfl filled
  | cons x xs ih =>
    obtain ⟨steps, rfl⟩ : ∃ steps, depth = steps + 1 := ⟨depth - 1, by omega⟩
    have first := reads x (by simp)
    cases xs with
    | nil =>
      apply items_last
      · exact first.read steps (by rw [indentedItems] at enough; omega) _ (by rintro c ⟨⟩; simp)
      · exact skip_newline (by rintro c ⟨⟩; decide) outer
    | cons y ys =>
      have later : ∀ z ∈ y :: ys, Reads (z.indentedChars level) z :=
        fun z member => reads z (List.mem_cons_of_mem x member)
      have solid := solid_items (List.cons_ne_nil y ys) later (newline outer ++ ']' :: rest)
      rw [indentedItems_cons_cons] at enough ⊢
      simp only [List.length_append, List.length_cons] at enough
      rw [List.append_assoc, List.cons_append, List.append_assoc]
      apply items_more
      · exact first.read steps (by omega) _ (by rintro c ⟨⟩; simp)
      · exact skip_of_solid (by rintro c ⟨⟩; decide)
      · rw [skip_newline fun c head => (solid c head).1]
        exact ih (List.cons_ne_nil y ys) later (by omega)

theorem reads_array {level : Nat} {xs : List Json}
    (reads : ∀ x ∈ xs, Reads (x.indentedChars (level + 1)) x) :
    Reads ((Json.array xs).indentedChars level) (.array xs) := by
  by_cases filled : xs = []
  · subst filled
    exact reads_of_cons (by decide) fun _ _ _ _ => rfl
  · have text : (Json.array xs).indentedChars level = '[' :: (newline (level + 1) ++
        (indentedItems (level + 1) xs ++ (newline level ++ [']']))) := by
      rw [indentedChars]
      · simp
      · exact filled
    rw [text]
    apply reads_of_cons (by decide)
    intro depth enough rest _
    simp only [List.append_assoc]
    simp only [List.length_append, newline, List.length_cons] at enough
    have solid := solid_items filled reads (newline level ++ ']' :: rest)
    apply value_array (skip_newline (fun c head => (solid c head).1) _)
    · intro closes
      exact (solid ']' closes).2 rfl
    · exact items_append filled reads (by omega) level rest

def ReadsMember (level : Nat) (member : String × Json) : Prop :=
  IsPlainText member.1 ∧ Reads (member.2.indentedChars level) member.2

theorem indentedMembers_singleton {level : Nat} {member : String × Json}
    (reads : ReadsMember level member) : indentedMembers level [member] =
      '"' :: (member.1.toList ++ '"' :: ':' :: ' ' :: member.2.indentedChars level) := by
  rw [indentedMembers, stringText_of_isPlain reads.1]
  simp

theorem indentedMembers_cons_cons {level : Nat} {member other : String × Json}
    (reads : ReadsMember level member) (others : List (String × Json)) :
    indentedMembers level (member :: other :: others) =
      '"' :: (member.1.toList ++ '"' :: ':' :: ' ' :: (member.2.indentedChars level ++
        (',' :: (newline level ++ indentedMembers level (other :: others))))) := by
  rw [indentedMembers, stringText_of_isPlain reads.1]
  · simp
  · exact List.cons_ne_nil other others

theorem exists_quote {level : Nat} {table : List (String × Json)} (filled : table ≠ [])
    (reads : ∀ member ∈ table, ReadsMember level member) :
    ∃ others, indentedMembers level table = '"' :: others := by
  cases table with
  | nil => exact absurd rfl filled
  | cons member table =>
    have first := reads member (by simp)
    cases table with
    | nil => exact ⟨_, indentedMembers_singleton first⟩
    | cons other table => exact ⟨_, indentedMembers_cons_cons first table⟩

theorem members_append {level : Nat} {table : List (String × Json)} (filled : table ≠ [])
    (reads : ∀ member ∈ table, ReadsMember level member) {depth : Nat}
    (enough : (indentedMembers level table).length < depth) (outer : Nat) (rest : List Char) :
    members depth (indentedMembers level table ++ (newline outer ++ '\x7d' :: rest)) =
      .ok (table, rest) := by
  induction table generalizing depth with
  | nil => exact absurd rfl filled
  | cons member table ih =>
    obtain ⟨steps, rfl⟩ : ∃ steps, depth = steps + 1 := ⟨depth - 1, by omega⟩
    obtain ⟨key, x⟩ := member
    have first := reads (key, x) (by simp)
    have name : ∀ tail, body (key.toList ++ '"' :: tail) = .ok (key.toList, tail) :=
      fun tail => body_append first.1
    have colon : ∀ tail, skip (':' :: tail) = ':' :: tail :=
      fun tail => skip_of_solid (by rintro c ⟨⟩; decide)
    have read : ∀ tail, Ends tail → (x.indentedChars level).length ≤ steps →
        Reader.value steps (skip (' ' :: (x.indentedChars level ++ tail))) = .ok (x, tail) := by
      intro tail ends short
      rw [skip_space fun c head => (first.2.solid_append c head).1]
      exact first.2.read steps short tail ends
    cases table with
    | nil =>
      rw [indentedMembers_singleton first] at enough ⊢
      simp only [List.length_append, List.length_cons] at enough
      simp only [List.cons_append, List.append_assoc]
      have value := read (newline outer ++ '\x7d' :: rest) (by rintro c ⟨⟩; simp) (by omega)
      have closes : skip (newline outer ++ '\x7d' :: rest) = '\x7d' :: rest :=
        skip_newline (by rintro c ⟨⟩; decide) outer
      have all := members_last (name _) (colon _) value closes
      rw [String.ofList_toList] at all
      exact all
    | cons other table =>
      have later : ∀ entry ∈ other :: table, ReadsMember level entry :=
        fun entry member => reads entry (List.mem_cons_of_mem _ member)
      obtain ⟨tail, quote⟩ := exists_quote (List.cons_ne_nil other table) later
      rw [indentedMembers_cons_cons first] at enough ⊢
      simp only [List.length_append, List.length_cons] at enough
      simp only [List.cons_append, List.append_assoc]
      have value := read (',' :: (newline level ++ (indentedMembers level (other :: table) ++
        (newline outer ++ '\x7d' :: rest)))) (by rintro c ⟨⟩; simp) (by omega)
      have comma : ∀ tail, skip (',' :: tail) = ',' :: tail :=
        fun tail => skip_of_solid (by rintro c ⟨⟩; decide)
      have onward : ∀ tail, skip (newline level ++ (indentedMembers level (other :: table) ++ tail))
          = indentedMembers level (other :: table) ++ tail :=
        fun tail => skip_newline (by rw [quote]; rintro c ⟨⟩; decide) level
      have all := members_more (name _) (colon _) value (comma _)
        (by rw [onward]; exact ih (List.cons_ne_nil other table) later (by omega))
      rw [String.ofList_toList] at all
      exact all

theorem reads_object {level : Nat} {table : List (String × Json)}
    (distinct : (table.map (·.1)).Nodup)
    (reads : ∀ member ∈ table, ReadsMember (level + 1) member) :
    Reads ((Json.object table).indentedChars level) (.object table) := by
  by_cases filled : table = []
  · subst filled
    exact reads_of_cons (by decide) fun _ _ _ _ => rfl
  · have text : (Json.object table).indentedChars level = '\x7b' :: (newline (level + 1) ++
        (indentedMembers (level + 1) table ++ (newline level ++ ['\x7d']))) := by
      rw [indentedChars]
      · simp
      · exact filled
    have same : ofMembers table = .object table := congrArg object (Table.ofList_of_nodup distinct)
    rw [text]
    apply reads_of_cons (by decide)
    intro depth enough rest _
    simp only [List.append_assoc]
    simp only [List.length_append, newline, List.length_cons] at enough
    obtain ⟨tail, quote⟩ := exists_quote filled reads
    rw [← same]
    apply value_object (skip_newline (by rw [quote]; rintro c ⟨⟩; decide) _)
    · rw [quote]
      rintro ⟨⟩
    · exact members_append filled reads (by omega) level rest

/-- Values that are read back from their indented text. -/
inductive Legible : Json → Prop
  | null : Legible .null
  | bool (b : Bool) : Legible (.bool b)
  | int {n : Int} (short : (Nat.toDigits 10 n.natAbs).length ≤ 4300) : Legible (.int n)
  | float (x : Float) : Legible (.float x)
  | string {s : String} (plain : IsPlainText s) : Legible (.string s)
  | array {xs : List Json} (items : ∀ x ∈ xs, Legible x) : Legible (.array xs)
  | object {table : List (String × Json)} (distinct : (table.map (·.1)).Nodup)
    (plain : ∀ member ∈ table, IsPlainText member.1)
    (values : ∀ member ∈ table, Legible member.2) : Legible (.object table)

theorem Legible.of_members {table : List (String × Json)} (distinct : (table.map (·.1)).Nodup)
    (members : ∀ member ∈ table, IsPlainText member.1 ∧ Legible member.2) :
    Legible (.object table) :=
  .object distinct (fun member found => (members member found).1)
    fun member found => (members member found).2

theorem Legible.reads {value : Json} (legible : Legible value) (level : Nat) :
    Reads (value.indentedChars level) value := by
  induction legible generalizing level with
  | null => exact reads_null
  | bool b => exact reads_bool b
  | int short => exact reads_int short
  | float x => exact reads_float x
  | string plain => exact reads_string plain
  | array _ ih => exact reads_array fun x member => ih x member (level + 1)
  | object distinct plain _ ih =>
    exact reads_object distinct fun member found =>
      ⟨plain member found, ih member found (level + 1)⟩

/-- The reader takes back what the writer has written. -/
theorem parse_indented {value : Json} (legible : Legible value) :
    parse value.indented = .ok value := by
  have reads := legible.reads 0
  have read := reads.read (2 * (value.indentedChars 0).length + 2) (by omega) [] ends_nil
  have start : skip (value.indentedChars 0) = value.indentedChars 0 :=
    skip_of_solid fun c head => (reads.solid c head).1
  rw [List.append_nil] at read
  unfold parse indented Reader.read
  rw [String.toList_ofList, start, read]
  rfl

end Screencast.Json
