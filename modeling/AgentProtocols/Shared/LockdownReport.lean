import AgentProtocols.Shared.EnvPolicy

/-!
The report of a lockdown, and what it says of the reads that the lockdown lets through.

* `report_names_hidden` — a variable that is set reads as unset exactly when the report names it, and
  the report shows no secret.
* `shown_value_passes` — what is read has passed, here and at every level that is not stricter.
-/

namespace AgentProtocols.Shared.Env

open Lib List

open A4P (isWhitespace trim)

section

variable {P : Platform} {raw name : String}

/-! ### The report -/

/-- The outcome of a check: what failed, and each variable that is set as it may be shown. -/
structure Report where
  level : Lockdown
  violations : List Violation
  seen : List (String × String)

/-- What is checked, as a `BTreeSet`: every specified name and, when locked, every enumerated name
in a covered namespace. -/
def EnvPolicy.checkedNames (policy : EnvPolicy P) (names : List String) (level : Lockdown) :
    List String :=
  (policy.specs.keys ++ if level = .locked then names.filter policy.covers else []).dedup.mergeSort
    fun a b => decide (a ≤ b)

def EnvPolicy.display (policy : EnvPolicy P) (name value : String) : String :=
  (policy.specs.get? name).elim value (·.displayValue value)

/-- `env` is the source's `get` and `names`. -/
def EnvPolicy.check (policy : EnvPolicy P) (env : (String → Option String) × List String)
    (level : Lockdown) : Report :=
  if level = .open_ then ⟨level, [], []⟩
  else
    let names := policy.checkedNames env.2 level
    { level
      violations := names.filterMap fun name =>
        match policy.evaluate name (env.1 name) level with
        | .ok () => none
        | .error violation => some violation
      seen := names.filterMap fun name =>
        (env.1 name).map fun value => (name, policy.display name value) }

def LockedEnv.report (env : LockedEnv P) (names : List String) : Report :=
  env.policy.check (env.inner, names) env.level

/-- A violation is of the variable that is evaluated, and shows its value as it may be shown. -/
theorem violation_of_evaluate {policy : EnvPolicy P} {value : Option String} {level : Lockdown}
    {v : Violation} (failed : policy.evaluate name value level = .error v) :
    v.name = name ∧ v.value = value.map (policy.display name) := by
  unfold EnvPolicy.evaluate at failed
  unfold EnvPolicy.display
  split at failed
  · cases failed
  split at failed
  · rename_i unspecified
    split at failed
    · cases failed
      exact ⟨rfl, by rw [unspecified]; cases value <;> rfl⟩
    · cases failed
  rename_i spec specified
  rw [specified]
  cases kind : spec.checkKind name value with
  | error e =>
    rw [kind] at failed
    cases failed
    unfold VarSpec.checkKind at kind
    split at kind
    · cases kind
    · split at kind <;> cases kind
      exact ⟨rfl, rfl⟩
  | ok u =>
    rw [kind] at failed
    obtain ⟨rule, -, broken⟩ := error_of_check_each failed
    unfold VarSpec.checkRule at broken
    split at broken
    · cases broken
    · split at broken <;> cases broken
      exact ⟨rfl, rfl⟩

theorem mem_checkedNames {policy : EnvPolicy P} {names : List String} {level : Lockdown} :
    name ∈ policy.checkedNames names level ↔
      name ∈ policy.specs.keys ∨ level = .locked ∧ name ∈ names ∧ policy.covers name = true := by
  rw [EnvPolicy.checkedNames, (mergeSort_perm _ _).mem_iff, mem_dedup, mem_append]
  split <;> simp [*]

/-- A variable that is not checked passes. -/
theorem evaluate_unchecked {policy : EnvPolicy P} {names : List String} {level : Lockdown}
    (enumerated : name ∈ names) (unchecked : name ∉ policy.checkedNames names level) :
    policy.evaluate name (some raw) level = .ok () := by
  rw [mem_checkedNames, not_or] at unchecked
  unfold EnvPolicy.evaluate
  split
  · rfl
  rw [OrderedMap.get?_eq_none_iff.mpr unchecked.1]
  refine if_neg fun known => unchecked.2 ?_
  simp only [Bool.and_eq_true, decide_eq_true_eq] at known
  exact ⟨known.1.1, enumerated, known.1.2⟩

theorem mem_violations {env : LockedEnv P} {names : List String} {v : Violation} :
    v ∈ (env.report names).violations ↔
      v.name ∈ env.policy.checkedNames names env.level ∧
        env.policy.evaluate v.name (env.inner v.name) env.level = .error v := by
  unfold LockedEnv.report EnvPolicy.check
  split
  · rename_i opened
    refine iff_of_false not_mem_nil ?_
    rintro ⟨-, failed⟩
    rw [EnvPolicy.evaluate, if_pos opened] at failed
    cases failed
  simp only [mem_filterMap]
  constructor
  · rintro ⟨name, checked, failed⟩
    split at failed <;> cases failed
    rename_i failed
    obtain ⟨rfl, -⟩ := violation_of_evaluate failed
    exact ⟨checked, failed⟩
  · rintro ⟨checked, failed⟩
    exact ⟨v.name, checked, by rw [failed]⟩

/-- The report names a variable that is set exactly when it is hidden, and shows no secret. -/
theorem report_names_hidden {env : LockedEnv P} {names : List String}
    (set : env.inner name = some raw) (enumerated : name ∈ names) :
    (env.get name = none ↔ ∃ v ∈ (env.report names).violations, v.name = name) ∧
    (∀ spec, env.policy.specs.get? name = some spec → spec.secret = true →
      (∀ v ∈ (env.report names).violations, v.name = name → v.value = some "[redacted]") ∧
      ∀ shown, (name, shown) ∈ (env.report names).seen → shown = "[redacted]") := by
  constructor
  · unfold LockedEnv.get
    rw [set]
    cases evaluated : env.policy.evaluate name (some raw) env.level with
    | ok u =>
      refine iff_of_false nofun ?_
      rintro ⟨v, mem, rfl⟩
      rw [mem_violations, set, evaluated] at mem
      cases mem.2
    | error v =>
      refine iff_of_true rfl ⟨v, ?_, (violation_of_evaluate evaluated).1⟩
      rw [mem_violations, (violation_of_evaluate evaluated).1, set]
      refine ⟨of_not_not fun unchecked => ?_, evaluated⟩
      cases evaluated.symm.trans (evaluate_unchecked enumerated unchecked)
  · intro spec specified secret
    have redacted (value : String) : env.policy.display name value = "[redacted]" := by
      rw [EnvPolicy.display, specified]
      exact if_pos secret
    constructor
    · rintro v mem rfl
      rw [(violation_of_evaluate (mem_violations.mp mem).2).2, set]
      exact congrArg some (redacted raw)
    · intro shown mem
      unfold LockedEnv.report EnvPolicy.check at mem
      split at mem
      · cases mem
      obtain ⟨name', -, found⟩ := mem_filterMap.mp mem
      obtain ⟨value, -, same⟩ := Option.map_eq_some_iff.mp found
      cases same
      exact redacted value

/-- A value that is read has passed its kind and the rules of the level, and is read at every level
that is not stricter. -/
theorem shown_value_passes {env : LockedEnv P} (shown : env.get name = some raw) :
    (∀ spec, env.level ≠ .open_ → env.policy.specs.get? name = some spec →
      spec.kind.check P (trim raw) = .ok () ∧ ∀ rule ∈ spec.rules,
        rule.fromLevel.rank ≤ env.level.rank → rule.evaluate (some (trim raw)) env.policy = .ok ()) ∧
    ∀ level : Lockdown, level.rank ≤ env.level.rank →
      ({ env with level } : LockedEnv P).get name = some raw := by
  obtain ⟨inner, passed⟩ := get_eq_some_iff.mp shown
  refine ⟨fun spec checked specified => (evaluate_of_rules checked specified).mp passed,
    fun level below => get_eq_some_iff.mpr ⟨inner, ?_⟩⟩
  dsimp only
  by_cases open_ : level = .open_
  · rw [EnvPolicy.evaluate, if_pos open_]
  have checked : env.level ≠ .open_ := by
    intro opened
    rw [opened] at below
    cases level <;> first | exact open_ rfl | cases below
  cases specified : env.policy.specs.get? name with
  | some spec =>
    obtain ⟨kind, rules⟩ := (evaluate_of_rules checked specified).mp passed
    exact (evaluate_of_rules open_ specified).mpr
      ⟨kind, fun rule mem enforced => rules rule mem (enforced.trans below)⟩
  | none =>
    rw [EnvPolicy.evaluate, if_neg checked, specified] at passed
    rw [EnvPolicy.evaluate, if_neg open_, specified]
    dsimp only at passed ⊢
    split at passed
    · cases passed
    · rename_i known
      refine if_neg fun unknown => known ?_
      cases level <;> cases at_ : env.level <;> simp_all [Lockdown.rank]

end

/-- A secret that must be an integer. -/
def secretPort (value : String) : LockedEnv wholeNumbers where
  inner key := if key = "PORT" then some value else none
  policy := ⟨OrderedMap.empty.insert "PORT" ⟨"PORT", .integer, true, []⟩, [], false⟩
  level := .restricted

theorem high_port_hidden : (secretPort "high").get "PORT" = none ∧
    ∃ v ∈ ((secretPort "high").report ["PORT"]).violations, v.name = "PORT" := by
  have hidden : (secretPort "high").get "PORT" = none := by decide
  exact ⟨hidden, (@report_names_hidden _ _ _ (secretPort "high") ["PORT"] rfl (.head _)).1.mp hidden⟩

theorem whole_port_shown :
    ({ secretPort "80" with level := .open_ } : LockedEnv _).get "PORT" = some "80" := by
  have shown : (secretPort "80").get "PORT" = some "80" := by decide
  exact (shown_value_passes shown).2 .open_ (by decide)

end AgentProtocols.Shared.Env
