import Mathlib.Order.WithBot
import AgentProtocols.Lib.OrderedMap

/-!
Maps in which the newest entry wins.

`offer` stores an entry when its version is above the one stored. Offering is a join of versions
(`versionAt_offerAll_le`, `versionAt_le_offerAll`, `version_le_offerAll`,
`versionAt_offerAll_eq_max`); where a version stands for one entry, the newest is found
(`get?_offerAll_iff`).
-/

namespace AgentProtocols.Lib

open OrderedMap

variable {K V E : Type*} [DecidableEq K] [LinearOrder V]

/-- How entries are filed: their key, their version, and whether they may be
stored at all. -/
structure Filing (K V E : Type*) where
  key : E → K
  version : E → V
  admits : E → Bool

namespace Filing

variable (F : Filing K V E)

/-- The version stored under a key. -/
def versionAt (m : OrderedMap K E) (k : K) : WithBot V := (m.get? k).map F.version

/-- The entry is admitted and newer than what is stored. -/
def Wins (m : OrderedMap K E) (e : E) : Prop :=
  F.admits e = true ∧ F.versionAt m (F.key e) < (F.version e : WithBot V)

instance (m : OrderedMap K E) (e : E) : Decidable (F.Wins m e) := inferInstanceAs (Decidable (_ ∧ _))

/-- Store the entry if it wins. -/
def offer (m : OrderedMap K E) (e : E) : OrderedMap K E :=
  if F.Wins m e then m.insert (F.key e) e else m

def offerAll (m : OrderedMap K E) (es : List E) : OrderedMap K E := es.foldl F.offer m

/-- How many of the offers win. -/
def winners (m : OrderedMap K E) : List E → Nat
  | [] => 0
  | e :: es => (if F.Wins m e then 1 else 0) + winners (F.offer m e) es

variable {F} {m : OrderedMap K E} {e : E} {es : List E} {k : K} {c : WithBot V}

theorem get?_offer_of_ne (ne : k ≠ F.key e) : (F.offer m e).get? k = m.get? k := by
  rw [offer]
  split
  · exact get?_insert_of_ne ne
  · rfl

omit [LinearOrder V] in
theorem versionAt_congr {m' : OrderedMap K E} (same : m'.get? k = m.get? k) :
    F.versionAt m' k = F.versionAt m k := by
  rw [versionAt, versionAt, same]

theorem offer_of_not_wins (loses : ¬F.Wins m e) : F.offer m e = m := by rw [offer, if_neg loses]

theorem versionAt_offer_self (admitted : F.admits e = true) :
    F.versionAt (F.offer m e) (F.key e) = max (F.versionAt m (F.key e)) (F.version e) := by
  by_cases above : F.versionAt m (F.key e) < (F.version e : WithBot V)
  · have wins : F.Wins m e := ⟨admitted, above⟩
    rw [offer, if_pos wins, max_eq_right above.le, versionAt, get?_insert_self]
    rfl
  · rw [offer_of_not_wins fun wins => above wins.2, max_eq_left (not_lt.mp above)]

theorem get?_offerAll (other : ∀ e ∈ es, F.admits e = true → F.key e ≠ k) :
    (F.offerAll m es).get? k = m.get? k := by
  induction es generalizing m with
  | nil => rfl
  | cons e es ih =>
    have rest := @ih (F.offer m e) fun e mem => other e (.tail _ mem)
    rw [offerAll, List.foldl_cons, ← offerAll, rest]
    by_cases admitted : F.admits e = true
    · exact get?_offer_of_ne (Ne.symm (other e (.head _) admitted))
    · rw [offer_of_not_wins fun wins => admitted wins.1]

theorem versionAt_le_offer : F.versionAt m k ≤ F.versionAt (F.offer m e) k := by
  by_cases wins : F.Wins m e
  · by_cases here : k = F.key e
    · rw [here, versionAt_offer_self wins.1]
      exact le_max_left _ _
    · exact (versionAt_congr (get?_offer_of_ne here)).ge
  · rw [offer_of_not_wins wins]

theorem versionAt_le_offerAll : F.versionAt m k ≤ F.versionAt (F.offerAll m es) k := by
  induction es generalizing m with
  | nil => exact le_refl _
  | cons e es ih => exact versionAt_le_offer.trans ih

theorem version_le_offerAll (mem : e ∈ es) (admitted : F.admits e = true) :
    (F.version e : WithBot V) ≤ F.versionAt (F.offerAll m es) (F.key e) := by
  induction es generalizing m with
  | nil => cases mem
  | cons head es ih =>
    rcases List.mem_cons.mp mem with rfl | mem
    · have here := @versionAt_offer_self _ _ _ _ _ F m e admitted
      exact ((le_max_right _ _).trans here.ge).trans versionAt_le_offerAll
    · exact ih mem

theorem versionAt_offerAll_le (start : F.versionAt m k ≤ c)
    (offers : ∀ e ∈ es, F.admits e = true → F.key e = k → (F.version e : WithBot V) ≤ c) :
    F.versionAt (F.offerAll m es) k ≤ c := by
  induction es generalizing m with
  | nil => exact start
  | cons e es ih =>
    refine ih ?_ fun e mem => offers e (.tail _ mem)
    by_cases wins : F.Wins m e
    · by_cases here : k = F.key e
      · rw [here, versionAt_offer_self wins.1, ← here]
        exact max_le start (offers e (.head _) wins.1 here.symm)
      · exact (versionAt_congr (get?_offer_of_ne here)).le.trans start
    · rw [offer_of_not_wins wins]
      exact start

/-- Where the offers are below `c`, and one is `c` if it has to be, the key goes to the join. -/
theorem versionAt_offerAll_eq_max
    (below : ∀ e ∈ es, F.admits e = true → F.key e = k → (F.version e : WithBot V) ≤ c)
    (reached : c ≤ F.versionAt m k ∨
      ∃ e ∈ es, F.admits e = true ∧ F.key e = k ∧ (F.version e : WithBot V) = c) :
    F.versionAt (F.offerAll m es) k = max (F.versionAt m k) c := by
  apply le_antisymm
  · apply versionAt_offerAll_le (le_max_left _ _)
    intro e mem admitted here
    exact (below e mem admitted here).trans (le_max_right _ _)
  · apply max_le versionAt_le_offerAll
    rcases reached with already | ⟨e, mem, admitted, rfl, version⟩
    · exact already.trans versionAt_le_offerAll
    · exact version.ge.trans (version_le_offerAll mem admitted)

theorem offerAll_of_losers (lose : ∀ e ∈ es, F.admits e = true →
    (F.version e : WithBot V) ≤ F.versionAt m (F.key e)) :
    F.offerAll m es = m ∧ F.winners m es = 0 := by
  induction es with
  | nil => exact ⟨rfl, rfl⟩
  | cons e es ih =>
    have loses : ¬F.Wins m e := fun wins => not_lt.mpr (lose e (.head _) wins.1) wins.2
    obtain ⟨same, none_won⟩ := ih fun e mem => lose e (.tail _ mem)
    constructor
    · rw [offerAll, List.foldl_cons, offer_of_not_wins loses]
      exact same
    · rw [winners, if_neg loses, offer_of_not_wins loses, none_won]

/-! ### What is found after a list of offers -/

/-- The entry is stored under the key, or offered and admitted for it. -/
def Candidate (F : Filing K V E) (m : OrderedMap K E) (es : List E) (k : K) (e : E) : Prop :=
  m.get? k = some e ∨ e ∈ es ∧ F.admits e = true ∧ F.key e = k

/-- A version stands for one entry: candidates for a key with equal versions are
equal. -/
def Consistent (F : Filing K V E) (m : OrderedMap K E) (es : List E) : Prop :=
  ∀ k e e', F.Candidate m es k e → F.Candidate m es k e' → F.version e = F.version e' → e = e'

def Newest (F : Filing K V E) (m : OrderedMap K E) (es : List E) (k : K) (e : E) : Prop :=
  F.Candidate m es k e ∧ ∀ e', F.Candidate m es k e' → F.version e' ≤ F.version e

omit [LinearOrder V] in
theorem Candidate.congr {es' : List E} (same : ∀ e, e ∈ es ↔ e ∈ es') :
    F.Candidate m es k e ↔ F.Candidate m es' k e := by
  rw [Candidate, Candidate, same e]

theorem Newest.congr {es' : List E} (same : ∀ e, e ∈ es ↔ e ∈ es') :
    F.Newest m es k e ↔ F.Newest m es' k e := by
  simp only [Newest, Candidate.congr same]

theorem wins_of_get?_offerAll (found : (F.offerAll m es).get? k = some e)
    (new : m.get? k ≠ some e) : e ∈ es ∧ F.key e = k ∧ F.Wins m e := by
  induction es generalizing m with
  | nil => exact absurd found new
  | cons head es ih =>
    by_cases stored : (F.offer m head).get? k = some e
    · by_cases wins : F.Wins m head
      · rw [offer, if_pos wins, get?_insert] at stored
        split at stored
        · rename_i here
          cases stored
          exact ⟨.head _, here.symm, wins⟩
        · exact absurd stored new
      · rw [offer_of_not_wins wins] at stored
        exact absurd stored new
    · obtain ⟨mem, here, admitted, newer⟩ := ih found stored
      exact ⟨.tail _ mem, here, admitted, versionAt_le_offer.trans_lt newer⟩

theorem candidate_of_offerAll (found : (F.offerAll m es).get? k = some e) :
    F.Candidate m es k e := by
  by_cases stored : m.get? k = some e
  · exact .inl stored
  · obtain ⟨mem, here, wins⟩ := wins_of_get?_offerAll found stored
    exact .inr ⟨mem, wins.1, here⟩

theorem version_le_of_candidate (candidate : F.Candidate m es k e) :
    (F.version e : WithBot V) ≤ F.versionAt (F.offerAll m es) k := by
  rcases candidate with stored | ⟨mem, admitted, rfl⟩
  · have before : F.versionAt m k = (F.version e : WithBot V) := by rw [versionAt, stored]; rfl
    rw [← before]
    exact versionAt_le_offerAll
  · exact version_le_offerAll mem admitted

/-- Where versions stand for entries, the newest candidate is found. -/
theorem get?_offerAll_iff (consistent : F.Consistent m es) :
    (F.offerAll m es).get? k = some e ↔ F.Newest m es k e := by
  constructor
  · intro found
    refine ⟨candidate_of_offerAll found, ?_⟩
    intro e' candidate
    have below := version_le_of_candidate candidate
    rw [versionAt, found] at below
    exact WithBot.coe_le_coe.mp below
  · rintro ⟨candidate, newest⟩
    have below := version_le_of_candidate candidate
    cases found : (F.offerAll m es).get? k with
    | none =>
      rw [versionAt, found] at below
      exact absurd (le_bot_iff.mp below) WithBot.coe_ne_bot
    | some e' =>
      rw [versionAt, found] at below
      have candidate' := candidate_of_offerAll found
      have same := le_antisymm (newest e' candidate') (WithBot.coe_le_coe.mp below)
      rw [consistent k e' e candidate' candidate same]

end Filing

end AgentProtocols.Lib
