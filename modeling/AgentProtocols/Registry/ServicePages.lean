import AgentProtocols.A4P.Util
import AgentProtocols.Json.Decimal

/-!
The pages of `list_services`. The offset of a page is a product at `usize`, which panics or wraps
when it is too large.

* `listQuery_bounds` — what is accepted has a size of at least -1 and a page of at least 1.
* `faithful_iff` — a page is the right window of the rows just where the product fits, and the
  pages that the header counts make up the list.
* `far_page_wraps` — a page beyond the last one that returns the first rows.
-/

namespace AgentProtocols.Registry.ServicePages

open Json Lib
open AgentProtocols.A4P (trim)

/-! ### The query -/

/-- `ApiError`. -/
inductive ApiError where
  | unprocessable (detail : String)
  | badRequest (detail : String)
deriving DecidableEq

structure ListQuery where
  fields : String := "detail"
  size : Int := -1
  page : Int := 1
  includeLeased : Bool := false
  includeUnhealthy : Bool := false
  filters : OrderedMap String String := .empty

/-- `parse_bool`; `debug` is the `{:?}` form of a text. -/
def parseBool (debug : String → String) (name value : String) : Except ApiError Bool :=
  let word := (trim value).toList.map Char.toLower
  if ["true", "1", "yes", "on", "y", "t"].any fun w => w.toList == word then .ok true
  else if ["false", "0", "no", "off", "n", "f"].any fun w => w.toList == word then .ok false
  else .error (.unprocessable
    ("query parameter '" ++ name ++ "' must be a boolean, got " ++ debug value))

/-- An integer parameter with a least value. -/
def parseAtLeast (least : Int) (message value : String) : Except ApiError Int :=
  match (parseI64 (trim value).toList).filter (least ≤ ·) with
  | some n => .ok n
  | none => .error (.unprocessable message)

def readParam (debug : String → String) (q : ListQuery) :
    String × String → Except ApiError ListQuery
  | ("fields", v) => .ok { q with fields := v }
  | ("size", v) => do
    let size ← parseAtLeast (-1) "size must be an integer >= -1" v
    return { q with size := size }
  | ("page", v) => do
    let page ← parseAtLeast 1 "page must be an integer >= 1" v
    return { q with page := page }
  | ("include_leased", v) => do
    let leased ← parseBool debug "include_leased" v
    return { q with includeLeased := leased }
  | ("include_unhealthy", v) => do
    let unhealthy ← parseBool debug "include_unhealthy" v
    return { q with includeUnhealthy := unhealthy }
  | (k, v) => .ok { q with filters := q.filters.insert k v }

def listQuery (debug : String → String) (params : List (String × String)) :
    Except ApiError ListQuery := do
  let q ← params.foldlM (readParam debug) {}
  if q.fields ≠ "brief" ∧ q.fields ≠ "detail" then
    .error (.badRequest ("fields must be one of ['brief', 'detail'], got '" ++ q.fields ++ "'"))
  else return q

/-! ### A page -/

structure Paged (α : Type) where
  slice : List α
  headers : List (String × String)

/-- A product at `usize`, which panics or wraps on overflow as the build has it. -/
def mulUsize (overflowChecks : Bool) (a b : Nat) : Option Nat :=
  if a * b < 2 ^ 64 then some (a * b)
  else if overflowChecks then none
  else some (a * b % 2 ^ 64)

/-- `usize::div_ceil`. -/
def divCeil (a b : Nat) : Nat := if a % b > 0 then a / b + 1 else a / b

def totalPages (total size : Nat) : Nat := if size = 0 then 1 else max 1 (divCeil total size)

def paginate {α : Type} (overflowChecks : Bool) (matched : List α) (size page : Int) :
    Option (Paged α) :=
  if size = -1 then some ⟨matched, []⟩
  else do
    let sizeU := (max size 0).toNat
    let offset ← mulUsize overflowChecks (page.toNat - 1) sizeU
    return ⟨(matched.drop offset).take sizeU,
      [("X-Total-Count", .ofList (natText matched.length)),
        ("X-Page", .ofList (intText page)),
        ("X-Total-Pages", .ofList (natText (totalPages matched.length sizeU))),
        ("X-Page-Size", .ofList (intText size))]⟩

def shown (fields : String) (row : JsonDict) : JsonDict :=
  if fields = "brief" then
    ["id", "name", "description"].map fun key => (key, (row.get key).getD .null)
  else row

/-- `list_services` from the matched rows on. -/
def listServices (overflowChecks : Bool) (matched : List JsonDict) (q : ListQuery) :
    Option (List (String × String) × List JsonDict) :=
  (paginate overflowChecks matched q.size q.page).map fun paged =>
    (paged.headers, paged.slice.map (shown q.fields))

/-! ### What is accepted -/

variable {debug : String → String} {q q' : ListQuery} {params : List (String × String)}

theorem le_of_parseAtLeast {least n : Int} {message value : String}
    (read : parseAtLeast least message value = .ok n) : least ≤ n := by
  rw [parseAtLeast] at read
  split at read
  · rename_i found
    cases read
    exact of_decide_eq_true (Option.filter_eq_some_iff.mp found).2
  · cases read

theorem readParam_bounds {kv : String × String} (bounds : -1 ≤ q.size ∧ 1 ≤ q.page)
    (read : readParam debug q kv = .ok q') : -1 ≤ q'.size ∧ 1 ≤ q'.page := by
  unfold readParam at read
  split at read
  · cases read
    exact bounds
  · obtain ⟨size, parsed, same⟩ := bind_eq_ok.mp read
    cases same
    exact ⟨le_of_parseAtLeast parsed, bounds.2⟩
  · obtain ⟨page, parsed, same⟩ := bind_eq_ok.mp read
    cases same
    exact ⟨bounds.1, le_of_parseAtLeast parsed⟩
  · obtain ⟨leased, -, same⟩ := bind_eq_ok.mp read
    cases same
    exact bounds
  · obtain ⟨unhealthy, -, same⟩ := bind_eq_ok.mp read
    cases same
    exact bounds
  · cases read
    exact bounds

theorem listQuery_bounds (read : listQuery debug params = .ok q) : -1 ≤ q.size ∧ 1 ≤ q.page := by
  obtain ⟨q', folded, kept⟩ := bind_eq_ok.mp read
  have bounds : ∀ {params : List (String × String)} {start : ListQuery},
      -1 ≤ start.size ∧ 1 ≤ start.page → params.foldlM (readParam debug) start = .ok q' →
        -1 ≤ q'.size ∧ 1 ≤ q'.page := by
    intro params
    induction params with
    | nil =>
      intro start bounds folded
      cases folded
      exact bounds
    | cons kv params ih =>
      intro start bounds folded
      obtain ⟨next, first, rest⟩ := bind_eq_ok.mp folded
      exact ih (readParam_bounds bounds first) rest
  split at kept
  · cases kept
  · cases kept
    exact bounds (by decide) folded

/-! ### The windows of a list -/

variable {α : Type} {rows : List α} {matched : List JsonDict} {size total : Nat} {checks : Bool}

/-- The rows `(page - 1) * size + 1 .. page * size`. -/
def window (rows : List α) (size page : Nat) : List α := (rows.drop ((page - 1) * size)).take size

theorem flatMap_window (rows : List α) (size n : Nat) :
    ((List.range n).flatMap fun p => window rows size (p + 1)) = rows.take (n * size) := by
  induction n with
  | zero => simp
  | succ n ih =>
    rw [List.range_succ, List.flatMap_append, ih, Nat.succ_mul, List.take_add]
    simp [window]

theorem le_totalPages (positive : 0 < size) : total ≤ totalPages total size * size := by
  have divided := Nat.div_add_mod' total size
  have small := Nat.mod_lt total positive
  have enough : total ≤ divCeil total size * size := by
    rw [divCeil]
    split
    · rw [Nat.succ_mul]
      omega
    · omega
  rw [totalPages, if_neg (by omega)]
  exact Nat.le_trans enough (Nat.mul_le_mul_right _ (Nat.le_max_right _ _))

theorem offset_of_page {p : Nat} (below : p < totalPages total size) (positive : 0 < size) :
    p * size ≤ total := by
  rw [totalPages, if_neg (by omega)] at below
  rcases Nat.eq_zero_or_pos p with rfl | later
  · omega
  · have le : p ≤ total / size := by
      rw [divCeil] at below
      split at below <;> omega
    exact Nat.le_trans (Nat.mul_le_mul_right _ le) (Nat.div_mul_le_self _ _)

theorem window_beyond {page : Nat} (positive : 0 < size) (beyond : totalPages rows.length size < page) :
    window rows size page = [] := by
  have enough := @le_totalPages size rows.length positive
  have further : totalPages rows.length size * size ≤ (page - 1) * size :=
    Nat.mul_le_mul_right _ (by omega)
  rw [window, List.drop_eq_nil_of_le (by omega), List.take_nil]

/-! ### The pages that are returned -/

/-- The page is the window of the rows, empty after the last one, and nothing overflows. -/
structure Faithful (overflowChecks : Bool) (matched : List JsonDict) (q : ListQuery) : Prop where
  listed : (listServices overflowChecks matched q).map Prod.snd =
    some ((window matched q.size.toNat q.page.toNat).map (shown q.fields))
  later : totalPages matched.length q.size.toNat < q.page.toNat →
    (listServices overflowChecks matched q).map Prod.snd = some []
  fits : (mulUsize true (q.page.toNat - 1) q.size.toNat).isSome = true

theorem listServices_of_fits (some_ : 1 ≤ q.size)
    (fits : (q.page.toNat - 1) * q.size.toNat < 2 ^ 64) :
    (listServices checks matched q).map Prod.snd =
      some ((window matched q.size.toNat q.page.toNat).map (shown q.fields)) := by
  have least : max q.size 0 = q.size := by omega
  have product : mulUsize checks (q.page.toNat - 1) q.size.toNat =
      some ((q.page.toNat - 1) * q.size.toNat) := if_pos fits
  rw [listServices, paginate, if_neg (by omega)]
  dsimp only
  rw [least, product]
  rfl

/-- A page is faithful just where its offset fits, and the pages that are counted make up the
list. -/
theorem faithful_iff (read : listQuery debug params = .ok q) (some_ : 1 ≤ q.size)
    (allocated : matched.length < 2 ^ 64) :
    1 ≤ q.page ∧
    (Faithful checks matched q ↔ (q.page.toNat - 1) * q.size.toNat < 2 ^ 64) ∧
    ∃ pages : Nat → List JsonDict, (∀ p < totalPages matched.length q.size.toNat,
        (listServices checks matched { q with page := p + 1 }).map Prod.snd = some (pages p)) ∧
      (List.range (totalPages matched.length q.size.toNat)).flatMap pages =
        matched.map (shown q.fields) := by
  have positive : 0 < q.size.toNat := by omega
  refine ⟨(listQuery_bounds read).2, ?_, ?_⟩
  · constructor
    · intro faithful
      have fits := faithful.fits
      rw [mulUsize] at fits
      split at fits
      · assumption
      · cases fits
    · intro fits
      refine ⟨listServices_of_fits some_ fits, fun beyond => ?_, ?_⟩
      · rw [listServices_of_fits some_ fits, window_beyond positive beyond]
        rfl
      · rw [mulUsize, if_pos fits]
        rfl
  · refine ⟨fun p => (window matched q.size.toNat (p + 1)).map (shown q.fields), ?_, ?_⟩
    · intro p below
      have offset := offset_of_page below positive
      exact listServices_of_fits (q := { q with page := p + 1 }) some_ (Nat.lt_of_le_of_lt offset allocated)
    · rw [← List.map_flatMap, flatMap_window, List.take_of_length_le (le_totalPages positive)]

theorem faithful_of_three : ∃ q, listQuery id [("size", "2"), ("page", "2")] = .ok q ∧
    Faithful true [[("id", .str "a")], [("id", .str "b")], [("id", .str "c")]] q := by
  refine ⟨{ size := 2, page := 2 }, rfl, ?_⟩
  have read : listQuery id [("size", "2"), ("page", "2")] = .ok { size := 2, page := 2 } := rfl
  exact (faithful_iff read (by decide) (by decide)).2.1.mpr (by decide)

/-- The offset of a page far beyond the last one wraps to the first row, or panics. -/
theorem far_page_wraps : ∃ q, listQuery id [("size", "4"), ("page", "4611686018427387905")] = .ok q ∧
    (listServices false [[("id", .str "a")]] q).map Prod.snd = some [[("id", .str "a")]] ∧
    listServices true [[("id", .str "a")]] q = none ∧
    window [[("id", Json.str "a")]] q.size.toNat q.page.toNat = [] ∧
    ¬ Faithful false [[("id", .str "a")]] q := by
  refine ⟨{ size := 4, page := 4611686018427387905 }, rfl, rfl, rfl, rfl, fun faithful => ?_⟩
  exact absurd faithful.fits (by decide)

end AgentProtocols.Registry.ServicePages
