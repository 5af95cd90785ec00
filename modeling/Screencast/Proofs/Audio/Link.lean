import Screencast.Proofs.Text.Unmarked

/-!
Filter graphs as they are read. A graph is one filter after another with semicolons between them; a
filter takes the streams whose names stand in brackets before it and gives those whose names stand
in brackets behind it.
-/

namespace Screencast

open Text

structure Link where
  sources : List String
  body : String
  sinks : List String
deriving DecidableEq, Repr

namespace Link

/-- The names in brackets with which a text begins, and the rest of the text. Of a name that has
been begun the first argument tells the part that has been read. -/
def names : Option (List Char) → List Char → List (List Char) × List Char
  | none, '[' :: rest => names (some []) rest
  | none, rest => ([], rest)
  | some name, ']' :: rest =>
    let (later, left) := names none rest
    (name :: later, left)
  | some name, c :: rest => names (some (name ++ [c])) rest
  | some name, [] => ([], '[' :: name)

def read? (text : List Char) : Option Link :=
  let (sources, rest) := names none text
  let (sinks, left) := names none (rest.dropWhile (· ≠ '['))
  if left = [] then
    some ⟨sources.map String.ofList, String.ofList (rest.takeWhile (· ≠ '[')),
      sinks.map String.ofList⟩
  else none

def readGraph (graph : String) : List (Option Link) :=
  (graph.toList.splitOn ';').map read?

def bracketed (names : List String) : List Char :=
  names.flatMap fun name => '[' :: (name.toList ++ [']'])

def toChars (link : Link) : List Char :=
  bracketed link.sources ++ (link.body.toList ++ bracketed link.sinks)

structure Plain (link : Link) : Prop where
  sources : ∀ name ∈ link.sources, Unmarked name.toList
  body : Unmarked link.body.toList
  nonempty : link.body ≠ ""
  sinks : ∀ name ∈ link.sinks, Unmarked name.toList

theorem names_of_begun {name : List Char} (plain : Unmarked name) (done rest : List Char) :
    names (some done) (name ++ ']' :: rest) =
      ((done ++ name) :: (names none rest).1, (names none rest).2) := by
  induction name generalizing done with
  | nil => simp [names]
  | cons c name ih =>
    obtain ⟨_, _, notClosing⟩ := plain c (by simp)
    have step : names (some done) (c :: (name ++ ']' :: rest)) =
        names (some (done ++ [c])) (name ++ ']' :: rest) := by
      rw [names]
      exact notClosing
    rw [List.cons_append, step, ih fun d member => plain d (List.mem_cons_of_mem _ member)]
    simp

theorem names_bracketed {texts : List String} (plain : ∀ name ∈ texts, Unmarked name.toList)
    (rest : List Char) :
    names none (bracketed texts ++ rest) =
      (texts.map String.toList ++ (names none rest).1, (names none rest).2) := by
  induction texts with
  | nil => simp [bracketed]
  | cons name texts ih =>
    have split : bracketed (name :: texts) ++ rest =
        '[' :: (name.toList ++ ']' :: (bracketed texts ++ rest)) := by
      simp [bracketed]
    rw [split, names, names_of_begun (plain name (by simp)),
      ih fun other member => plain other (List.mem_cons_of_mem _ member)]
    simp

theorem names_of_body {body : List Char} (plain : Unmarked body) (nonempty : body ≠ [])
    (rest : List Char) : names none (body ++ rest) = ([], body ++ rest) := by
  cases body with
  | nil => exact absurd rfl nonempty
  | cons c body =>
    obtain ⟨_, notOpening, _⟩ := plain c (by simp)
    rw [List.cons_append, names]
    exact fun rest same => notOpening (List.cons.inj same).1

theorem span_body {body : List Char} (plain : Unmarked body) (sinks : List String) :
    (body ++ bracketed sinks).takeWhile (· ≠ '[') = body ∧
      (body ++ bracketed sinks).dropWhile (· ≠ '[') = bracketed sinks := by
  have inside : ∀ c ∈ body, decide (c ≠ '[') = true := fun c member => by
    simpa using (plain c member).2.1
  refine span_append inside fun c first => ?_
  cases sinks with
  | nil => cases first
  | cons name rest =>
    cases first
    rfl

/-- A filter is read as what was written. -/
theorem read?_toChars {link : Link} (plain : link.Plain) : read? link.toChars = some link := by
  have nonempty : link.body.toList ≠ [] := fun empty =>
    plain.nonempty (String.toList_inj.mp empty)
  obtain ⟨taken, dropped⟩ := span_body plain.body link.sinks
  have front : names none link.toChars = (link.sources.map String.toList,
      link.body.toList ++ bracketed link.sinks) := by
    rw [toChars, names_bracketed plain.sources, names_of_body plain.body nonempty]
    simp
  have back : names none (bracketed link.sinks) = (link.sinks.map String.toList, []) := by
    have empty : names none [] = ([], []) := rfl
    rw [← List.append_nil (bracketed link.sinks), names_bracketed plain.sinks, empty]
    simp
  simp only [read?, front, taken, dropped, back, if_true]
  simp [Function.comp_def]

theorem semicolon_notMem_toChars {link : Link} (plain : link.Plain) : ';' ∉ link.toChars := by
  have outside : ∀ texts : List String, (∀ name ∈ texts, Unmarked name.toList) →
      ';' ∉ bracketed texts := by
    intro texts names member
    obtain ⟨name, inTexts, inName⟩ := List.mem_flatMap.mp member
    simp only [List.mem_cons, List.mem_append, List.not_mem_nil, or_false] at inName
    rcases inName with opening | inside | closing
    · cases opening
    · exact (names name inTexts ';' inside).1 rfl
    · cases closing
  intro member
  rcases List.mem_append.mp member with source | rest
  · exact outside _ plain.sources source
  · rcases List.mem_append.mp rest with body | sink
    · exact (plain.body ';' body).1 rfl
    · exact outside _ plain.sinks sink

theorem readGraph_intercalate {links : List Link} (some_link : links ≠ [])
    (plain : ∀ link ∈ links, link.Plain) :
    readGraph (String.intercalate ";" (links.map fun link => String.ofList link.toChars)) =
      links.map some := by
  unfold readGraph
  rw [String.toList_intercalate, List.map_map]
  have parts : links.map (String.toList ∘ fun link => String.ofList link.toChars) =
      links.map toChars := by
    simp [Function.comp_def]
  rw [parts]
  have separated : ∀ text ∈ links.map toChars, ';' ∉ text := by
    intro text member
    obtain ⟨link, inLinks, rfl⟩ := List.mem_map.mp member
    exact semicolon_notMem_toChars (plain link inLinks)
  have split := List.splitOn_intercalate ';' separated (by simpa using some_link)
  have separator : ";".toList = [';'] := rfl
  rw [separator, split, List.map_map]
  exact List.map_congr_left fun link member => read?_toChars (plain link member)

end Link

end Screencast
