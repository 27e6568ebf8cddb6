import AgentProtocols.A4P.Intent.ScopeMatching

/-!
`fnmatchcase` beside Python's `fnmatch.translate`. A bracket expression becomes the text of a regular
expression class there: its body is cut at the hyphens of ranges, reversed ranges are removed, and
a `!` that comes first after that negates the class.

* `classOf_stuff` — the class is the set of `parse_bracket` unless such a `!` has moved to the front.
* `fnmatchcase_iff_translate` — when the two agree on every name.
* `moved_bang_disagrees` — a name on which they do not.
-/

namespace AgentProtocols.A4P.PythonGlob

open Lib

/-! ### The text of a class -/

/-- A character in the text of a class. -/
inductive Sym where
  | raw (c : Char)
  | escaped (c : Char)

def Sym.char : Sym → Char
  | raw c | escaped c => c

def consFirst (c : Char) : List (List Char) → List (List Char)
  | [] => [[c]]
  | chunk :: chunks => (c :: chunk) :: chunks

/-- `pat.find('-', k, j)` again and again: the next hyphen that cuts is at least `skip` away. -/
def splitChunks : Nat → List Char → List (List Char)
  | _, [] => [[]]
  | skip + 1, c :: rest => consFirst c (splitChunks skip rest)
  | 0, '-' :: rest => [] :: splitChunks 2 rest
  | 0, c :: rest => consFirst c (splitChunks 0 rest)

/-- An empty last chunk leaves its hyphen to the chunk before. -/
def closeChunks : List (List Char) → List (List Char)
  | [chunk, []] => [chunk ++ ['-']]
  | chunk :: chunks => chunk :: closeChunks chunks
  | [] => []

/-- Remove empty ranges, the last one first. -/
def dropEmptyRanges : List (List Char) → List (List Char)
  | [] => []
  | chunk :: chunks =>
    match dropEmptyRanges chunks with
    | [] => [chunk]
    | next :: after =>
      if chunk.getLast?.any fun lo => next.head?.any fun hi => decide (hi < lo) then
        (chunk.dropLast ++ next.drop 1) :: after
      else chunk :: next :: after

def escape (c : Char) : Sym :=
  if c = '\\' ∨ c = '-' ∨ c = '&' ∨ c = '~' ∨ c = '|' then .escaped c else .raw c

def joinChunks : List (List Char) → List Sym
  | [] => []
  | [chunk] => chunk.map escape
  | chunk :: chunks => chunk.map escape ++ .raw '-' :: joinChunks chunks

def stuff (body : List Char) : List Sym :=
  joinChunks (dropEmptyRanges (closeChunks (splitChunks (if body.head? = some '!' then 2 else 1) body)))

/-- What is between the brackets of a class, as `re` reads it. -/
def classItems : List Sym → List Char × List (Char × Char)
  | start :: .raw '-' :: stop :: rest =>
    let (singles, ranges) := classItems rest
    (singles, (start.char, stop.char) :: ranges)
  | c :: rest =>
    let (singles, ranges) := classItems rest
    (c.char :: singles, ranges)
  | [] => ([], [])

def classSet (negate : Bool) (syms : List Sym) : Bracket := ⟨negate, (classItems syms).1, (classItems syms).2⟩

def classOf : List Sym → Bracket
  | [] => ⟨false, [], []⟩
  | [.raw '!'] => ⟨true, [], []⟩
  | .raw '!' :: rest => classSet true rest
  | .raw '^' :: rest => classSet false (.escaped '^' :: rest)
  | .raw '[' :: rest => classSet false (.escaped '[' :: rest)
  | syms => classSet false syms

/-! ### The pieces of a pattern -/

inductive Piece where
  | star
  | any
  | bracket (body : List Char)
  | literal (c : Char)

/-- The body of a bracket expression and what follows it. -/
def bracketBody (rest : List Char) : Option (List Char × List Char) :=
  let j := if rest.head? = some '!' then 1 else 0
  let j := if rest[j]? = some ']' then j + 1 else j
  let j := j + ((rest.drop j).takeWhile (· ≠ ']')).length
  if j ≥ rest.length then none else some (rest.take j, rest.drop (j + 1))

def bracketOf (body : List Char) : Bracket :=
  let negate := body.head? == some '!'
  let (singles, ranges) := bracketItems (if negate then body.drop 1 else body)
  ⟨negate, singles, ranges⟩

theorem parseBracket_eq (rest : List Char) :
    parseBracket rest = (bracketBody rest).map fun (body, tail) => (bracketOf body, tail) := by
  unfold parseBracket bracketBody
  extract_lets j k l body negate
  split <;> rfl

theorem bracketBody_length {rest body tail : List Char} (closed : bracketBody rest = some (body, tail)) :
    tail.length ≤ rest.length :=
  @parseBracket_length rest tail (bracketOf body) (by rw [parseBracket_eq, closed]; rfl)

def pieces (pattern : List Char) : List Piece :=
  match pattern with
  | [] => []
  | '*' :: rest => .star :: pieces rest
  | '?' :: rest => .any :: pieces rest
  | '[' :: rest =>
    match _h : bracketBody rest with
    | some (body, tail) => .bracket body :: pieces tail
    | none => .literal '[' :: pieces rest
  | literal :: rest => .literal literal :: pieces rest
termination_by pattern.length
decreasing_by
  all_goals simp only [List.length_cons]
  all_goals first
    | omega
    | (have shorter := bracketBody_length _h
       omega)

def Piece.token (read : List Char → Bracket) : Piece → Glob.Token Char
  | star => .star
  | any => .one fun _ => true
  | bracket body => .one (read body).hits
  | literal c => .one fun d => d == c

/-- `fnmatch.translate`: the language of the regular expression, as a glob. -/
def translate (pattern : List Char) : List (Glob.Token Char) :=
  Glob.compress ((pieces pattern).map (Piece.token fun body => classOf (stuff body)))

theorem globTokens_eq (pattern : List Char) :
    globTokens pattern = (pieces pattern).map (Piece.token bracketOf) := by
  fun_induction pieces pattern with
  | case1 => rw [globTokens]; rfl
  | case2 rest ih => rw [globTokens, ih]; rfl
  | case3 rest ih => rw [globTokens, ih]; rfl
  | case4 rest body tail closed ih =>
    have parsed : parseBracket rest = some (bracketOf body, tail) := by
      rw [parseBracket_eq, closed]
      rfl
    rw [globTokens, parsed]
    exact congrArg _ ih
  | case5 rest unclosed ih =>
    have parsed : parseBracket rest = none := by
      rw [parseBracket_eq, unclosed]
      rfl
    rw [globTokens, parsed]
    exact congrArg _ ih
  | case6 literal rest notStar notAny notBracket ih =>
    rw [globTokens, ih]
    · rfl
    · exact notStar
    · exact notAny
    · exact notBracket

/-! ### Reading the class back -/

/-- The text of a body without a leading `!`. -/
def plain (body : List Char) : List (List Char) :=
  dropEmptyRanges (closeChunks (splitChunks 1 body))

variable {c lo hi : Char} {body more : List Char}

theorem closeChunks_consFirst (c : Char) (chunks : List (List Char)) :
    closeChunks (consFirst c chunks) = consFirst c (closeChunks chunks) := by
  rcases chunks with _ | ⟨chunk, _ | ⟨_ | ⟨d, next⟩, _ | ⟨after, chunks⟩⟩⟩ <;> rfl

theorem dropEmptyRanges_consFirst (c d : Char) (chunks : List (List Char)) :
    dropEmptyRanges (consFirst c (consFirst d chunks)) =
      consFirst c (dropEmptyRanges (consFirst d chunks)) := by
  cases chunks with
  | nil => rfl
  | cons chunk chunks =>
    simp only [consFirst, dropEmptyRanges]
    cases dropEmptyRanges chunks with
    | nil => rfl
    | cons next after =>
      dsimp only
      rw [List.getLast?_cons_cons]
      split <;> rfl

/-- A character before the rest of a body joins its first chunk. -/
theorem drop_close_consFirst (c : Char) (body : List Char) :
    dropEmptyRanges (closeChunks (consFirst c (splitChunks 1 body))) = consFirst c (plain body) := by
  cases body with
  | nil => rfl
  | cons d rest =>
    rw [plain, splitChunks, closeChunks_consFirst, closeChunks_consFirst, dropEmptyRanges_consFirst]

theorem plain_single (other : ∀ hi rest, more ≠ '-' :: hi :: rest) :
    plain (c :: more) = consFirst c (plain more) := by
  rw [← drop_close_consFirst, plain, splitChunks]
  match more with
  | [] => rfl
  | ['-'] => rfl
  | '-' :: hi :: rest => exact absurd rfl (other hi rest)
  | d :: rest =>
    by_cases hyphen : d = '-'
    · subst hyphen
      cases rest with
      | nil => rfl
      | cons hi rest => exact absurd rfl (other hi rest)
    · have same : splitChunks 0 (d :: rest) = splitChunks 1 (d :: rest) := by
        rw [splitChunks, splitChunks]
        exact hyphen
      rw [same]

/-- The text of a body that is read as one without a leading `!`. -/
def text (body : List Char) : List Sym := joinChunks (plain body)

theorem joinChunks_consFirst (c : Char) (chunks : List (List Char)) :
    joinChunks (consFirst c chunks) = escape c :: joinChunks chunks := by
  rcases chunks with _ | ⟨chunk, _ | ⟨next, chunks⟩⟩ <;> rfl

theorem text_range : text (lo :: '-' :: hi :: more) =
    if hi < lo then text more else escape lo :: .raw '-' :: escape hi :: text more := by
  have chunks : splitChunks 1 (lo :: '-' :: hi :: more) = [lo] :: consFirst hi (splitChunks 1 more) := rfl
  have closed : closeChunks ([lo] :: consFirst hi (splitChunks 1 more)) =
      [lo] :: closeChunks (consFirst hi (splitChunks 1 more)) := by
    rcases splitChunks 1 more with _ | ⟨chunk, _ | ⟨next, chunks⟩⟩ <;> rfl
  rw [text, plain, chunks, closed, dropEmptyRanges, drop_close_consFirst, text]
  rcases plain more with _ | ⟨first, _ | ⟨next, after⟩⟩ <;> by_cases reversed : hi < lo <;>
    simp [consFirst, joinChunks, escape, reversed]

theorem text_single (other : ∀ hi rest, more ≠ '-' :: hi :: rest) :
    text (c :: more) = escape c :: text more := by
  rw [text, plain_single other, text, joinChunks_consFirst]

theorem stuff_eq : stuff body =
    if body.head? = some '!' then .raw '!' :: text (body.drop 1) else text body := by
  rw [stuff]
  split
  · rename_i bang
    obtain ⟨rest, rfl⟩ := List.head?_eq_some_iff.mp bang
    rw [splitChunks, drop_close_consFirst, joinChunks_consFirst]
    rfl
  · rfl

@[simp] theorem char_escape (c : Char) : (escape c).char = c := by
  rw [escape]
  split <;> rfl

theorem escape_eq_raw {d : Char} (same : escape c = .raw d) : c = d ∧ d ≠ '-' := by
  rw [escape] at same
  split at same
  · cases same
  · rename_i plain
    cases same
    exact ⟨rfl, fun hyphen => plain (.inr (.inl hyphen))⟩

/-- No text starts with the hyphen of a range. -/
theorem text_head (body : List Char) : (text body).head? ≠ some (.raw '-') := by
  induction body using bracketItems.induct with
  | case1 lo hi more _ _ _ ih =>
    rw [text_range]
    split
    · exact ih
    · exact fun same => (escape_eq_raw (Option.some.inj same)).2 rfl
  | case2 c more other _ _ _ ih =>
    rw [text_single other]
    exact fun same => (escape_eq_raw (Option.some.inj same)).2 rfl
  | case3 => exact nofun

theorem text_other (body : List Char) (stop : Sym) (rest : List Sym) :
    text body ≠ .raw '-' :: stop :: rest :=
  fun same => text_head body (by rw [same]; rfl)

theorem classItems_single (sym : Sym) {syms : List Sym}
    (other : ∀ stop rest, syms ≠ .raw '-' :: stop :: rest) :
    classItems (sym :: syms) = (sym.char :: (classItems syms).1, (classItems syms).2) := by
  rw [classItems]
  exact other

/-- The class has the items that `parse_bracket` reads. -/
theorem classItems_text (body : List Char) : classItems (text body) = bracketItems body := by
  induction body using bracketItems.induct with
  | case1 lo hi more _ _ _ ih =>
    rw [text_range, bracketItems]
    by_cases reversed : hi < lo
    · simp [reversed, ih, Char.not_le.mpr reversed]
    · simp [reversed, classItems, ih, Char.not_lt.mp reversed]
  | case2 c more other _ _ _ ih =>
    rw [text_single other, classItems_single, ih, bracketItems, char_escape]
    · exact other
    · exact text_other more
  | case3 => rfl

/-- The body without the reversed ranges at its start. -/
def dropReversed : List Char → List Char
  | lo :: '-' :: hi :: rest => if hi < lo then dropReversed rest else lo :: '-' :: hi :: rest
  | body => body

/-- A `!` that is not the first character of the body, but of the text of the class. -/
def Misread (body : List Char) : Prop :=
  body.head? ≠ some '!' ∧ (dropReversed body).head? = some '!'

instance (body : List Char) : Decidable (Misread body) := inferInstanceAs (Decidable (_ ∧ _))

theorem text_dropReversed (body : List Char) : text (dropReversed body) = text body := by
  fun_induction dropReversed body with
  | case1 lo hi rest reversed ih => rw [ih, text_range, if_pos reversed]
  | case2 | case3 => rfl

theorem bracketItems_dropReversed (body : List Char) :
    bracketItems (dropReversed body) = bracketItems body := by
  rw [← classItems_text, text_dropReversed, classItems_text]

theorem ordered_of_dropReversed (starts : dropReversed body = lo :: '-' :: hi :: more) : ¬ hi < lo := by
  fun_induction dropReversed body with
  | case1 _ _ rest reversed ih => exact ih starts
  | case2 _ _ rest ordered =>
    cases starts
    exact ordered
  | case3 body other => exact absurd starts (other _ _ _)

theorem head_of_text (bang : (text body).head? = some (.raw '!')) :
    (dropReversed body).head? = some '!' := by
  fun_induction dropReversed body with
  | case1 lo hi rest reversed ih =>
    rw [text_range, if_pos reversed] at bang
    exact ih bang
  | case2 lo hi rest ordered =>
    rw [text_range, if_neg ordered] at bang
    exact congrArg some (escape_eq_raw (Option.some.inj bang)).1
  | case3 body other =>
    cases body with
    | nil => cases bang
    | cons c more =>
      rw [text_single fun hi rest same => other _ _ _ (by rw [same])] at bang
      exact congrArg some (escape_eq_raw (Option.some.inj bang)).1

theorem classSet_head {a b : Sym} (same : a.char = b.char) (negate : Bool) (syms : List Sym) :
    classSet negate (a :: syms) = classSet negate (b :: syms) := by
  by_cases range : ∃ stop rest, syms = .raw '-' :: stop :: rest
  · obtain ⟨stop, rest, rfl⟩ := range
    rw [classSet, classSet, classItems, classItems, same]
  · have other : ∀ stop rest, syms ≠ .raw '-' :: stop :: rest :=
      fun stop rest same => range ⟨stop, rest, same⟩
    rw [classSet, classSet, classItems_single a other, classItems_single b other, same]

theorem classOf_bang (syms : List Sym) : classOf (.raw '!' :: syms) = classSet true syms := by
  cases syms <;> rfl

theorem classOf_plain {syms : List Sym} (head : syms.head? ≠ some (.raw '!')) :
    classOf syms = classSet false syms := by
  unfold classOf
  split
  · rfl
  · exact absurd rfl head
  · exact absurd rfl head
  · exact @classSet_head (.escaped '^') (.raw '^') rfl _ _
  · exact @classSet_head (.escaped '[') (.raw '[') rfl _ _
  · rfl

/-- Python's class is the set of `parse_bracket`. -/
theorem classOf_stuff (read : ¬ Misread body) : classOf (stuff body) = bracketOf body := by
  rw [stuff_eq, bracketOf]
  by_cases bang : body.head? = some '!'
  · rw [if_pos bang, classOf_bang, classSet, classItems_text]
    simp [bang]
  · rw [if_neg bang, classOf_plain, classSet, classItems_text]
    · simp [bang]
    · exact fun head => read ⟨bang, head_of_text head⟩

theorem starts_of_misread (misread : Misread body) : ∃ rest, dropReversed body = '!' :: rest ∧
    bracketOf body = ⟨false, (bracketItems ('!' :: rest)).1, (bracketItems ('!' :: rest)).2⟩ := by
  obtain ⟨bang, moved⟩ := misread
  cases starts : dropReversed body with
  | nil =>
    rw [starts] at moved
    cases moved
  | cons c rest =>
    rw [starts] at moved
    cases moved
    refine ⟨rest, rfl, ?_⟩
    have plain_ : (body.head? == some '!') = false := by simpa using bang
    rw [bracketOf, plain_, ← starts, bracketItems_dropReversed]
    rfl

theorem inhabited_of_misread (misread : Misread body) : ∃ c, (bracketOf body).hits c = true := by
  obtain ⟨rest, starts, same⟩ := starts_of_misread misread
  rw [same]
  refine ⟨'!', ?_⟩
  by_cases range : ∃ hi more, rest = '-' :: hi :: more
  · obtain ⟨hi, more, rfl⟩ := range
    have ordered := Char.not_lt.mp (ordered_of_dropReversed starts)
    simp [bracketItems, Bracket.hits, ordered]
  · rw [bracketItems]
    · simp [Bracket.hits]
    · exact fun hi more same => range ⟨hi, more, same⟩

/-- A misread class has another set. -/
theorem differ_of_misread (misread : Misread body) :
    (bracketOf body).hits ≠ (classOf (stuff body)).hits := by
  obtain ⟨rest, starts, items⟩ := starts_of_misread misread
  rw [stuff_eq, if_neg misread.1, ← text_dropReversed, items, starts]
  intro same
  by_cases range : ∃ hi more, rest = '-' :: hi :: more
  · obtain ⟨hi, more, rfl⟩ := range
    have ordered := ordered_of_dropReversed starts
    have at_hi := congrFun same hi
    have hyphen : ∀ stop rest, escape hi :: text more ≠ .raw '-' :: stop :: rest :=
      fun stop rest same => (escape_eq_raw (List.cons.inj same).1).2 rfl
    rw [text_range, if_neg ordered, show escape '!' = .raw '!' from rfl, classOf_bang, classSet,
      classItems_single _ hyphen, classItems_single _ (text_other more), bracketItems] at at_hi
    simp [Bracket.hits, Char.not_lt.mp ordered] at at_hi
  · have other : ∀ hi more, rest ≠ '-' :: hi :: more := fun hi more same => range ⟨hi, more, same⟩
    have at_a := congrFun same 'a'
    rw [text_single other, show escape '!' = .raw '!' from rfl, classOf_bang, classSet,
      classItems_text, bracketItems] at at_a
    · have flips : ∀ x y : Bool, (x || y) ≠ (!x && !y) := by decide
      simp [Bracket.hits] at at_a
      exact flips _ _ at_a
    · exact other

/-! ### The languages -/

variable {read read' : List Char → Bracket} {ps : List Piece}

theorem length_sets : (Glob.sets (ps.map (Piece.token read))).length =
    (Glob.sets (ps.map (Piece.token read'))).length := by
  induction ps with
  | nil => rfl
  | cons piece ps ih => cases piece <;> simp [Piece.token, Glob.sets, ih]

theorem mem_sets (mem : .bracket body ∈ ps) : (read body).hits ∈ Glob.sets (ps.map (Piece.token read)) := by
  induction ps with
  | nil => cases mem
  | cons piece ps ih =>
    rcases List.mem_cons.mp mem with rfl | inside
    · exact List.mem_cons_self
    · cases piece with
      | star => exact ih inside
      | _ => exact .tail _ (ih inside)

theorem inhabited_sets (inhabited : ∀ body, .bracket body ∈ ps → ∃ c, (read body).hits c = true) :
    ∀ accepts ∈ Glob.sets (ps.map (Piece.token read)), ∃ c, accepts c = true := by
  induction ps with
  | nil => exact nofun
  | cons piece ps ih =>
    have rest := ih fun body mem => inhabited body (.tail _ mem)
    cases piece with
    | star => exact rest
    | any => exact List.forall_mem_cons.mpr ⟨⟨'a', rfl⟩, rest⟩
    | bracket body => exact List.forall_mem_cons.mpr ⟨inhabited body List.mem_cons_self, rest⟩
    | literal c => exact List.forall_mem_cons.mpr ⟨⟨c, beq_self_eq_true c⟩, rest⟩

theorem hits_eq_of_sets (same : Glob.sets (ps.map (Piece.token read)) =
    Glob.sets (ps.map (Piece.token read'))) (mem : .bracket body ∈ ps) :
    (read body).hits = (read' body).hits := by
  induction ps with
  | nil => cases mem
  | cons piece ps ih =>
    cases piece with
    | star => exact ih same (by simpa using mem)
    | bracket other =>
      obtain ⟨first, rest⟩ := List.cons.inj same
      rcases List.mem_cons.mp mem with here | mem
      · cases here
        exact first
      · exact ih rest mem
    | any | literal c => exact ih (List.cons.inj same).2 (by simpa using mem)

/-- `fnmatchcase` and Python agree on every name just where no bracket expression is misread, or one
matches no character. -/
theorem fnmatchcase_iff_translate (pattern : String) :
    (∀ name : String,
      fnmatchcase name pattern = true ↔ Glob.Matches (translate pattern.toList) name.toList) ↔
    (∀ body, .bracket body ∈ pieces pattern.toList → ¬ Misread body) ∨
      ∃ body, .bracket body ∈ pieces pattern.toList ∧ ∀ c, (bracketOf body).hits c = false := by
  have both : ∀ name : String, (fnmatchcase name pattern = true ↔
      Glob.Matches (translate pattern.toList) name.toList) ↔
      (Glob.Matches ((pieces pattern.toList).map (Piece.token bracketOf)) name.toList ↔
        Glob.Matches ((pieces pattern.toList).map (Piece.token fun body => classOf (stuff body)))
          name.toList) := by
    intro name
    rw [fnmatchcase, matchHere_iff, globTokens_eq, translate, Glob.matches_compress]
  constructor
  · intro agree
    by_contra! neither
    obtain ⟨⟨body, mem, misread⟩, inhabited⟩ := neither
    apply differ_of_misread misread
    refine @hits_eq_of_sets _ bracketOf (fun body => classOf (stuff body)) _
      (Glob.sets_eq_of_agree length_sets (inhabited_sets ?_) ?_) mem
    · intro body mem
      obtain ⟨c, hit⟩ := inhabited body mem
      exact ⟨c, by simpa using hit⟩
    · intro word
      have named := (both (String.ofList word)).mp (agree _)
      rwa [String.toList_ofList] at named
  · rintro (clean | ⟨body, mem, empty⟩) name
    · rw [both]
      have same : (pieces pattern.toList).map (Piece.token bracketOf) =
          (pieces pattern.toList).map (Piece.token fun body => classOf (stuff body)) := by
        refine List.map_congr_left fun piece mem => ?_
        cases piece with
        | bracket body => exact congrArg (fun b : Bracket => Glob.Token.one b.hits) (classOf_stuff (clean body mem)).symm
        | star | any | literal c => rfl
      rw [same]
    · have sound : ¬ Misread body := by
        intro misread
        obtain ⟨c, hit⟩ := inhabited_of_misread misread
        rw [empty c] at hit
        cases hit
      have none_ : ∀ (read : List Char → Bracket), read body = bracketOf body →
          ¬ Glob.Matches ((pieces pattern.toList).map (Piece.token read)) name.toList := by
        intro read same matched
        obtain ⟨c, hit⟩ := matched.inhabited _ (mem_sets mem)
        rw [same, empty c] at hit
        cases hit
      rw [both]
      exact iff_of_false (none_ _ rfl) (none_ _ (classOf_stuff sound))

/-- Python reads `[b-a!x]` as `[^x]`, and matches `a`. -/
theorem moved_bang_disagrees : fnmatchcase "a" "[b-a!x]" = false ∧
    Glob.Matches (translate "[b-a!x]".toList) "a".toList := by
  have one : pieces "[b-a!x]".toList = [.bracket ['b', '-', 'a', '!', 'x']] := by
    simp [pieces, bracketBody]
  constructor
  · rw [Bool.eq_false_iff, ne_eq, fnmatchcase, matchHere_iff, globTokens_eq, one]
    rintro (_ | _ | ⟨accepted, -⟩)
    cases accepted
  · rw [translate, one]
    exact .one rfl .nil

end AgentProtocols.A4P.PythonGlob
