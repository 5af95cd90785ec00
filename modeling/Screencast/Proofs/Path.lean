import Mathlib.Data.List.Induction
import Mathlib.Logic.Relation
import Screencast.Path

/-!
Where media files lie. The place that is found is absolute, so it is found again from any base; and
for a file that is seen from a base it is the one shortest way of all that lead there: the parts of
the folder, the base and the file shortened until no dots are left.
-/

namespace Screencast.Path

def parts (text : String) : List String :=
  (text.toList.splitOn '/').map String.ofList

/-- Whether a text can be one of the names of a path: not empty, no single dot, and without a
slash. -/
def IsName (name : String) : Prop :=
  isName name.toList = true ∧ '/' ∉ name.toList

def Regular (path : Path) : Prop :=
  ∀ name ∈ path.names, IsName name

theorem isName_iff {name : String} : isName name.toList = true ↔ name ≠ "" ∧ name ≠ "." := by
  have empty : name.toList = [] ↔ name = "" := String.toList_eq_nil_iff
  have dot : name.toList = ['.'] ↔ name = "." := by
    rw [← String.toList_inj]
    rfl
  rw [isName, Bool.and_eq_true, decide_eq_true_eq, decide_eq_true_eq, Ne, Ne, empty, dot]

section Reading

theorem splitSlashes_eq_splitOn (cs : List Char) : splitSlashes cs = cs.splitOn '/' := by
  induction cs with
  | nil => rfl
  | cons c rest ih =>
    rw [List.splitOn_cons_eq_if_modifyHead, ← ih]
    by_cases slash : c = '/'
    · simp [slash, splitSlashes]
    · rw [if_neg (by simpa using slash), splitSlashes.eq_3 _ _ slash]
      cases split : splitSlashes rest with
      | nil => exact absurd (ih.symm.trans split) (List.splitOn_ne_nil _ _)
      | cons first others => rfl

theorem not_mem_of_mem_splitSlashes {cs part : List Char} (member : part ∈ splitSlashes cs) :
    '/' ∉ part := by
  induction cs generalizing part with
  | nil =>
    rw [List.mem_singleton.mp member]
    exact List.not_mem_nil
  | cons c rest ih =>
    by_cases slash : c = '/'
    · rw [slash, splitSlashes] at member
      rcases List.mem_cons.mp member with rfl | later
      · exact List.not_mem_nil
      · exact ih later
    · rw [splitSlashes.eq_3 _ _ slash] at member
      split at member
      · rw [List.mem_singleton.mp member, List.mem_singleton]
        exact Ne.symm slash
      · next first others split =>
        rw [split] at ih
        rcases List.mem_cons.mp member with rfl | later
        · rw [List.mem_cons]
          exact not_or.mpr ⟨Ne.symm slash, ih List.mem_cons_self⟩
        · exact ih (List.mem_cons_of_mem _ later)

theorem names_ofString (text : String) :
    (ofString text).names = (parts text).filter fun part => isName part.toList := by
  rw [parts, List.filter_map, ← splitSlashes_eq_splitOn]
  simp only [Function.comp_def, String.toList_ofList]
  rfl

theorem regular_ofString (text : String) : (ofString text).Regular := by
  intro name member
  obtain ⟨part, kept, rfl⟩ := List.mem_map.mp member
  obtain ⟨isPart, named⟩ := List.mem_filter.mp kept
  rw [IsName, String.toList_ofList]
  exact ⟨named, not_mem_of_mem_splitSlashes isPart⟩

def joined (names : List String) : List Char :=
  ['/'].intercalate (names.map String.toList)

theorem names_of_joined {names : List String} (regular : ∀ name ∈ names, IsName name) :
    ((splitSlashes (joined names)).filter isName).map String.ofList = names := by
  rw [splitSlashes_eq_splitOn]
  cases names with
  | nil => rfl
  | cons first rest =>
    have separated : ∀ part ∈ (first :: rest).map String.toList, '/' ∉ part := by
      intro part member
      obtain ⟨name, isName, rfl⟩ := List.mem_map.mp member
      exact (regular name isName).2
    have kept : ∀ part ∈ (first :: rest).map String.toList, isName part = true := by
      intro part member
      obtain ⟨name, isName, rfl⟩ := List.mem_map.mp member
      exact (regular name isName).1
    rw [joined, List.splitOn_intercalate '/' separated (by simp), List.filter_eq_self.mpr kept,
      List.map_map]
    simp [Function.comp_def]

theorem head?_joined {names : List String} (regular : ∀ name ∈ names, IsName name) :
    (joined names).head? ≠ some '/' := by
  cases names with
  | nil => simp [joined]
  | cons first rest =>
    obtain ⟨named, noSlash⟩ := regular first List.mem_cons_self
    have lead : (joined (first :: rest)).head? = first.toList.head? := by
      cases isFirst : first.toList with
      | nil => simp [isFirst, isName] at named
      | cons c cs => cases rest <;> simp [joined, isFirst]
    rw [lead]
    exact fun starts => noSlash (List.mem_of_head? starts)

theorem anchorOf_joined {names : List String} (regular : ∀ name ∈ names, IsName name) :
    anchorOf (joined names) = .here ∧ anchorOf ('/' :: joined names) = .root ∧
      anchorOf ('/' :: '/' :: joined names) = .doubleRoot := by
  have lead := head?_joined regular
  cases isJoined : joined names with
  | nil => exact ⟨rfl, rfl, rfl⟩
  | cons c cs =>
    rw [isJoined, List.head?_cons, Ne, Option.some.injEq] at lead
    simp [anchorOf, lead]

theorem toList_toString {anchor : Anchor} {names : List String}
    (some_text : anchor ≠ .here ∨ names ≠ []) :
    (Path.toString ⟨anchor, names⟩).toList = (anchorText anchor).toList ++ joined names := by
  unfold Path.toString
  split
  · simp_all
  · rw [String.toList_append, String.toList_intercalate]
    rfl

/-- A path of names is what its text is read as. -/
theorem ofString_toString {path : Path} (regular : path.Regular) :
    ofString path.toString = path := by
  obtain ⟨anchor, names⟩ := path
  have back := names_of_joined regular
  obtain ⟨here, root, doubleRoot⟩ := anchorOf_joined regular
  by_cases nothing : anchor = .here ∧ names = []
  · rw [nothing.1, nothing.2]
    rfl
  · rw [ofString, toList_toString (by tauto)]
    cases anchor with
    | here => exact congrArg₂ Path.mk here back
    | root => exact congrArg₂ Path.mk root back
    | doubleRoot => exact congrArg₂ Path.mk doubleRoot back

end Reading

section Shortening

/-- One step that makes a way shorter: a part that is empty or a single dot is left out, a name
goes together with the double dot behind it, and above the root there is nothing. -/
inductive Shortens : List String → List String → Prop
  | skip (front back : List String) {part : String} (idle : part = "" ∨ part = ".") :
    Shortens (front ++ part :: back) (front ++ back)
  | back (front back : List String) {name : String} (named : name ≠ "" ∧ name ≠ ".")
    (down : name ≠ "..") : Shortens (front ++ name :: ".." :: back) (front ++ back)
  | top (back : List String) : Shortens (".." :: back) back

def descend (above : List String) (part : String) : List String :=
  if part = "" ∨ part = "." then above
  else if part = ".." then above.dropLast
  else above ++ [part]

def shortest (way : List String) : List String :=
  way.foldl descend []

theorem shortest_append (front back : List String) :
    shortest (front ++ back) = back.foldl descend (shortest front) :=
  List.foldl_append

theorem descend_idle (above : List String) {part : String} (idle : part = "" ∨ part = ".") :
    descend above part = above :=
  if_pos idle

theorem descend_double (above : List String) : descend above ".." = above.dropLast := by
  rw [descend, if_neg (by decide), if_pos rfl]

theorem descend_name (above : List String) {name : String} (named : name ≠ "" ∧ name ≠ ".")
    (down : name ≠ "..") : descend above name = above ++ [name] := by
  rw [descend, if_neg (not_or.mpr named), if_neg down]

theorem reduce_filter (way : List String) :
    reduce (way.filter fun part => isName part.toList) = shortest way := by
  rw [reduce, List.foldl_filter, shortest]
  congr 1
  funext above part
  have named : isName part.toList = true ↔ part ≠ "" ∧ part ≠ "." := isName_iff
  unfold descend
  split <;> split <;> simp_all

theorem Shortens.shortest_eq {way shorter : List String} (step : Shortens way shorter) :
    shortest way = shortest shorter := by
  cases step with
  | skip front back idle =>
    rw [shortest_append, shortest_append, List.foldl_cons, descend_idle _ idle]
  | back front back named down =>
    rw [shortest_append, shortest_append, List.foldl_cons, List.foldl_cons,
      descend_name _ named down, descend_double, List.dropLast_concat]
  | top =>
    rw [shortest, List.foldl_cons, descend_double]
    rfl

theorem shortest_eq_of_shortens {way shorter : List String}
    (steps : Relation.ReflTransGen Shortens way shorter) : shortest way = shortest shorter := by
  induction steps with
  | refl => rfl
  | tail _ step ih => exact ih.trans step.shortest_eq

theorem Shortens.append {way shorter : List String} (step : Shortens way shorter)
    (behind : List String) : Shortens (way ++ behind) (shorter ++ behind) := by
  cases step with
  | skip front back idle =>
    rw [List.append_assoc, List.append_assoc]
    exact .skip front (back ++ behind) idle
  | back front back named down =>
    rw [List.append_assoc, List.append_assoc]
    exact .back front (back ++ behind) named down
  | top back => exact .top (shorter ++ behind)

/-- Every part that is left is a name of the way, and none is a double dot. -/
theorem mem_shortest {way : List String} {name : String} (member : name ∈ shortest way) :
    name ∈ way ∧ (name ≠ "" ∧ name ≠ ".") ∧ name ≠ ".." := by
  induction way using List.reverseRecOn with
  | nil => cases member
  | append_singleton way part ih =>
    rw [shortest_append, List.foldl_cons, List.foldl_nil, descend] at member
    split at member
    · obtain ⟨inWay, isName⟩ := ih member
      exact ⟨List.mem_append_left _ inWay, isName⟩
    · next named =>
      split at member
      · obtain ⟨inWay, isName⟩ := ih (List.dropLast_subset _ member)
        exact ⟨List.mem_append_left _ inWay, isName⟩
      · next down =>
        rcases List.mem_append.mp member with before | last
        · obtain ⟨inWay, isName⟩ := ih before
          exact ⟨List.mem_append_left _ inWay, isName⟩
        · rw [List.mem_singleton.mp last]
          exact ⟨by simp, not_or.mp named, down⟩

theorem shortens_shortest (way : List String) :
    Relation.ReflTransGen Shortens way (shortest way) := by
  induction way using List.reverseRecOn with
  | nil => exact .refl
  | append_singleton way part ih =>
    -- The way to the last part is shortened first; what is left before that part are names.
    refine .trans (ih.lift (· ++ [part]) fun _ _ step => step.append [part]) ?_
    change Relation.ReflTransGen Shortens (shortest way ++ [part]) _
    rw [shortest_append, List.foldl_cons, List.foldl_nil, descend]
    split
    · next idle =>
      have step := Shortens.skip (shortest way) [] idle
      rw [List.append_nil] at step
      exact .single step
    · next named =>
      split
      · next double =>
        subst double
        rcases List.eq_nil_or_concat (shortest way) with nothing | ⟨above, name, split⟩
        · rw [nothing]
          exact .single (.top [])
        · rw [List.concat_eq_append] at split
          have last : name ∈ shortest way := by simp [split]
          have isName := (mem_shortest last).2
          have step := Shortens.back above [] isName.1 isName.2
          rw [List.append_nil] at step
          rw [split, List.dropLast_concat, List.append_assoc]
          exact .single step
      · exact .refl

end Shortening

section Finding

structure Homes.Absolute (homes : Homes) : Prop where
  own : homes.own.isAbsolute = true ∧ homes.own.Regular
  others : ∀ user home, homes.others.find? user = some home →
    home.isAbsolute = true ∧ home.Regular

theorem Homes.Absolute.find? {homes : Homes} (absolute : homes.Absolute) {name : String}
    {home : Path} (found : homes.find? name = some home) :
    home.isAbsolute = true ∧ home.Regular := by
  unfold Homes.find? at found
  split at found
  · cases found
    exact absolute.own
  · exact absolute.others _ _ found
  · cases found

/-- Whether a file is seen from the base: it stands neither in a home nor at a place told from the
root. -/
def SeenFromBase (file : String) : Prop :=
  file.startsWith "~" = false ∧ file.startsWith "/" = false

instance (file : String) : Decidable (SeenFromBase file) :=
  inferInstanceAs (Decidable (file.startsWith "~" = false ∧ file.startsWith "/" = false))

def way (folder base file : String) : List String :=
  (if base.startsWith "/" then parts base else parts folder ++ parts base) ++ parts file

theorem anchorOf_eq_here_iff {cs : List Char} : anchorOf cs = .here ↔ ¬ ['/'] <+: cs := by
  unfold anchorOf
  split
  · simp
  · simp
  · simp
  · next other =>
    refine ⟨fun _ => ?_, fun _ => rfl⟩
    rintro ⟨rest, rfl⟩
    exact other rest rfl

theorem startsWith_slash (text : String) :
    text.startsWith "/" = (ofString text).isAbsolute := by
  have lead : text.startsWith "/" = true ↔ ['/'] <+: text.toList := String.startsWith_string_iff
  rw [Bool.eq_iff_iff, lead, isAbsolute, decide_eq_true_eq]
  exact (not_iff_comm.mp anchorOf_eq_here_iff.symm).symm

theorem not_startsWith_home {path : Path} (absolute : path.isAbsolute = true) :
    path.toString.startsWith "~" = false := by
  have lead : path.toString.startsWith "~" = true ↔ ['~'] <+: path.toString.toList :=
    String.startsWith_string_iff
  obtain ⟨anchor, names⟩ := path
  rw [isAbsolute, decide_eq_true_eq] at absolute
  rw [toList_toString (.inl absolute)] at lead
  rw [Bool.eq_false_iff, Ne, lead]
  cases anchor with
  | here => exact absurd rfl absolute
  | root | doubleRoot => simp [anchorText]

variable {homes : Homes} {folder base file : String}

theorem ofMediaFrom_toString {found : Path} (absolute : found.isAbsolute = true)
    (regular : found.Regular) (folder : Path) (homes : Homes) (base : Path) :
    ofMediaFrom folder homes base found.toString = .ok found := by
  unfold ofMediaFrom
  rw [not_startsWith_home absolute, ofString_toString regular]
  simp [absolute]

/-- The names from the root on are those of the way. -/
theorem names_join (seen : SeenFromBase file) :
    ((ofString folder).join ((ofString base).join (ofString file))).names =
      (way folder base file).filter fun part => isName part.toList := by
  have relative : (ofString file).isAbsolute = false := (startsWith_slash file).symm.trans seen.2
  have fromBase : (ofString base).join (ofString file) =
      ⟨(ofString base).anchor, (ofString base).names ++ (ofString file).names⟩ := by
    rw [join, relative]
    rfl
  rw [way, startsWith_slash, fromBase, join]
  change (if (ofString base).isAbsolute = true then _ else _ : Path).names = _
  split <;> simp only [List.filter_append, names_ofString, List.append_assoc]

theorem ofMediaFrom_of_seenFromBase (seen : SeenFromBase file) :
    ofMediaFrom (ofString folder) homes (ofString base) file =
      .ok ⟨.root, shortest (way folder base file)⟩ := by
  have relative : (ofString file).isAbsolute = false := (startsWith_slash file).symm.trans seen.2
  rw [← reduce_filter, ← names_join seen, ofMediaFrom, seen.1]
  simp only [relative]
  rfl

theorem not_mem_of_mem_parts {text part : String} (member : part ∈ parts text) :
    '/' ∉ part.toList := by
  obtain ⟨cs, isPart, rfl⟩ := List.mem_map.mp member
  rw [← splitSlashes_eq_splitOn] at isPart
  rw [String.toList_ofList]
  exact not_mem_of_mem_splitSlashes isPart

theorem regular_shortest_way : Regular ⟨.root, shortest (way folder base file)⟩ := by
  intro name member
  obtain ⟨inWay, named, -⟩ := mem_shortest member
  refine ⟨isName_iff.mpr named, ?_⟩
  unfold way at inWay
  rcases List.mem_append.mp inWay with before | inFile
  · split at before
    · exact not_mem_of_mem_parts before
    · exact (List.mem_append.mp before).elim not_mem_of_mem_parts not_mem_of_mem_parts
  · exact not_mem_of_mem_parts inFile

theorem names_ne_nil (inHome : file.startsWith "~" = true) : (ofString file).names ≠ [] := by
  have lead : ['~'] <+: file.toList := String.startsWith_string_iff.mp inHome
  obtain ⟨rest, split⟩ := lead
  rw [ofString]
  dsimp only
  rw [← split, List.singleton_append, splitSlashes.eq_3 _ _ (by decide)]
  split <;> simp [isName]

theorem expandHome_settled (absolute : homes.Absolute) (inHome : file.startsWith "~" = true)
    {found : Path} (isFound : (ofString file).expandHome homes = .ok found) :
    found.isAbsolute = true ∧ found.Regular := by
  unfold expandHome at isFound
  split at isFound
  · next nameless => exact absurd nameless (names_ne_nil inHome)
  · next first rest names =>
    split at isFound
    · next home isHome =>
      obtain ⟨isAbsolute, regular⟩ := absolute.find? isHome
      cases isFound
      refine ⟨isAbsolute, fun name member => ?_⟩
      rcases List.mem_append.mp member with inHome | behind
      · exact regular name inHome
      · exact regular_ofString file name (by rw [names]; exact List.mem_cons_of_mem _ behind)
    · cases isFound

theorem ofMediaFrom_settled (absolute : homes.Absolute) {found : Path}
    (isFound : ofMediaFrom (ofString folder) homes (ofString base) file = .ok found) :
    found.isAbsolute = true ∧ found.Regular := by
  by_cases inHome : file.startsWith "~" = true
  · rw [ofMediaFrom, if_pos inHome] at isFound
    exact expandHome_settled absolute inHome isFound
  · by_cases fromRoot : file.startsWith "/" = true
    · have isAbsolute : (ofString file).isAbsolute = true := startsWith_slash file ▸ fromRoot
      rw [ofMediaFrom, if_neg inHome] at isFound
      simp only [isAbsolute, if_true] at isFound
      cases isFound
      exact ⟨isAbsolute, regular_ofString file⟩
    · have seen : SeenFromBase file :=
        ⟨Bool.eq_false_iff.mpr inHome, Bool.eq_false_iff.mpr fromRoot⟩
      rw [ofMediaFrom_of_seenFromBase seen] at isFound
      cases isFound
      exact ⟨rfl, regular_shortest_way⟩

/-- What is found is absolute, and found again from any other base. What is seen from a base is
found at the shortest form of the way there, so two ways lead to one place exactly if they can be
shortened to one. -/
theorem ofMediaFrom_settles (absolute : homes.Absolute) (folder base file : String) :
    (∀ found, ofMediaFrom (ofString folder) homes (ofString base) file = .ok found →
      found.isAbsolute = true ∧
        ∀ here other : Path, ofMediaFrom here homes other found.toString = .ok found) ∧
    (SeenFromBase file → ∃ found,
      ofMediaFrom (ofString folder) homes (ofString base) file = .ok found ∧
      (∀ name ∈ found.names, name ≠ "" ∧ name ≠ "." ∧ name ≠ "..") ∧
      Relation.ReflTransGen Shortens (way folder base file) found.names ∧
      ∀ folder' base' file', SeenFromBase file' →
        (ofMediaFrom (ofString folder') homes (ofString base') file' = .ok found ↔
          ∃ common, Relation.ReflTransGen Shortens (way folder base file) common ∧
            Relation.ReflTransGen Shortens (way folder' base' file') common)) := by
  constructor
  · intro found isFound
    obtain ⟨isAbsolute, regular⟩ := ofMediaFrom_settled absolute isFound
    exact ⟨isAbsolute, fun here other => ofMediaFrom_toString isAbsolute regular here homes other⟩
  · intro seen
    refine ⟨_, ofMediaFrom_of_seenFromBase seen, ?_, shortens_shortest _, ?_⟩
    · intro name member
      obtain ⟨-, named, down⟩ := mem_shortest member
      exact ⟨named.1, named.2, down⟩
    · intro folder' base' file' seen'
      rw [ofMediaFrom_of_seenFromBase seen']
      constructor
      · intro same
        have ways : shortest (way folder' base' file') = shortest (way folder base file) :=
          congrArg Path.names (Except.ok.inj same)
        exact ⟨_, shortens_shortest _, ways ▸ shortens_shortest _⟩
      · rintro ⟨common, first, second⟩
        rw [shortest_eq_of_shortens first, shortest_eq_of_shortens second]

/-- Two spellings with double dots beyond the root and two slashes in front of the base. -/
theorem ofMediaFrom_settles_beyond_root :
    let homes : Homes := ⟨ofString "/home/ann", [("bob", ofString "//srv/bob")]⟩
    homes.Absolute ∧ SeenFromBase "../../../.././a.mp3" ∧ SeenFromBase "b/../a.mp3" ∧
      ∃ found,
        ofMediaFrom (ofString "/work") homes (ofString "clips//x/") "../../../.././a.mp3" =
          .ok found ∧
        ofMediaFrom (ofString "/") homes (ofString "//") "b/../a.mp3" = .ok found ∧
        found.isAbsolute = true ∧
        ∀ other, ofMedia homes other found.toString = .ok found := by
  intro homes
  have absolute : homes.Absolute := by
    refine ⟨⟨rfl, regular_ofString _⟩, ?_⟩
    intro user home isHome
    obtain ⟨-, rfl⟩ : "bob" = user ∧ ofString "//srv/bob" = home := by
      simpa [homes, Table.find?] using isHome
    exact ⟨rfl, regular_ofString _⟩
  have first : SeenFromBase "../../../.././a.mp3" := by decide +kernel
  have second : SeenFromBase "b/../a.mp3" := by decide +kernel
  obtain ⟨again, seen⟩ :=
    ofMediaFrom_settles absolute "/work" "clips//x/" "../../../.././a.mp3"
  obtain ⟨found, isFound, -, -, same⟩ := seen first
  have ways : shortest (way "/work" "clips//x/" "../../../.././a.mp3") =
      shortest (way "/" "//" "b/../a.mp3") := by decide +kernel
  refine ⟨absolute, first, second, found, isFound, ?_, (again found isFound).1,
    (again found isFound).2 _⟩
  exact (same "/" "//" "b/../a.mp3" second).mpr
    ⟨_, shortens_shortest _, ways ▸ shortens_shortest _⟩

end Finding

end Screencast.Path
