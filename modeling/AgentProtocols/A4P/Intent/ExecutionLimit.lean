import AgentProtocols.A4P.Intent.Service

/-!
The execution limit of an intent token over whole runs of `verifyToken`. In the second of the expiry
the usage row is gone and the token is not (`limit_exceeded_at_expiry`); where every accepted call
finds a store that has seen earlier clock values, the limit holds (`validCalls_le_limit`).
-/

namespace AgentProtocols.A4P

open Json Lib OrderedMap

inductive UsageStoreKind where
  | inMemory
  | sqlite

/-- `consume` of either store. Only the database can be unavailable. -/
def UsageStoreKind.consume : UsageStoreKind → Bool → UsageRows → ConsumeCall →
    ConsumeResult × UsageRows
  | .inMemory, _ => InMemory.consume
  | .sqlite, available => SQLite.consume available

/-- One `verify_token` call: the clock values of its verifier and of the store, and the database. -/
structure VerifyCall where
  request : JsonDict
  now : Int
  nowStore : Int
  available : Bool

namespace VerifyCall

def token (call : VerifyCall) : JsonDict := objectOrEmpty call.request "token"

/-- The stateless verifier accepts the call. -/
def accepted (P : Platform) (call : VerifyCall) : Prop :=
  verifyIntentToken P call.token (tokenExpectation P call.request) call.now = .ok ()

end VerifyCall

section

variable (P : Platform) (kind : UsageStoreKind)

/-- One call against the shared rows. -/
def serveVerify (rows : UsageRows) (call : VerifyCall) : TokenVerificationResponse × UsageRows :=
  verifyToken P (kind.consume call.available) rows call.request call.now call.nowStore

/-- How many of the calls on `token` are answered `valid`. -/
def validCalls (token : JsonDict) (rows : UsageRows) (calls : List VerifyCall) : Nat :=
  (calls.zip (answers (serveVerify P kind) rows calls)).countP fun e =>
    decide (e.1.token = token) && e.2.valid

/-- `executionPolicy.maxExecutions` of a token. -/
def executionLimit (token : JsonDict) : Option Int := do
  let scope ← (normalizeIntentScope P (token.get "intent")).toOption
  let policy ← getObject scope "executionPolicy"
  (policy.get "maxExecutions").bind asInt

def tokenExpiry (token : JsonDict) : Option Int := P.parseIsoZ (strTrimmed P token "expireAt")

/-- Accepted calls on the token reach a store that has read clock values before its expiry only. -/
def StoreBeforeExpiry (token : JsonDict) (calls : List VerifyCall) : Prop :=
  ∀ before call after, calls = before ++ call :: after → call.token = token →
    call.accepted P → ∀ expiry, tokenExpiry P token = some expiry →
      ∀ earlier ∈ before ++ [call], earlier.nowStore < expiry

/-! ### What one call does -/

theorem UsageStoreKind.consume_effect (available : Bool) (rows : UsageRows) (call : ConsumeCall) :
    ConsumeEffect rows call (kind.consume available rows call) := by
  cases kind with
  | inMemory => exact InMemory.consume_effect rows call
  | sqlite => exact SQLite.consume_effect available rows call

/-- The store granted an execution. -/
def granted : ConsumeResult → Bool
  | .ok (consumed, _) => consumed
  | .error _ => false

variable {now limit : Int} {rows : UsageRows} {call : VerifyCall} {a : TokenAllowance}
  {token : JsonDict} {n : Nat}

theorem verifyToken_of_accepted {σ : Type} {consume : σ → ConsumeCall → ConsumeResult × σ}
    {store : σ} {request : JsonDict} {nowStore : Int}
    (verified : verifyIntentToken P (objectOrEmpty request "token") (tokenExpectation P request)
      now = .ok ())
    (allowance : tokenAllowance P (objectOrEmpty request "token") = .ok (.ok (some a))) :
    let outcome := consume store ⟨a.tokenId, a.maxExecutions, a.expireAtEpoch, nowStore⟩
    (verifyToken P consume store request now nowStore).2 = outcome.2 ∧
      (verifyToken P consume store request now nowStore).1.valid = granted outcome.1 := by
  intro outcome
  rcases hconsume : consume store
    ⟨a.tokenId, a.maxExecutions, a.expireAtEpoch, nowStore⟩ with ⟨result, store'⟩
  cases result with
  | error e =>
    simp [outcome, verifyToken, verified, consumeTokenUsage, allowance, hconsume, granted]
  | ok answer =>
    obtain ⟨consumed, used⟩ := answer
    cases consumed <;>
      simp [outcome, verifyToken, verified, consumeTokenUsage, allowance, hconsume, granted]

theorem verifyToken_cases {σ : Type} (consume : σ → ConsumeCall → ConsumeResult × σ) (store : σ)
    (request : JsonDict) (now nowStore : Int) :
    let token := objectOrEmpty request "token"
    let response := verifyToken P consume store request now nowStore
    (response.2 = store ∧ (response.1.valid = true → tokenAllowance P token = .ok (.ok none))) ∨
      ∃ a : TokenAllowance, tokenAllowance P token = .ok (.ok (some a)) ∧
        response.2 = (consume store ⟨a.tokenId, a.maxExecutions, a.expireAtEpoch, nowStore⟩).2 ∧
        response.1.valid =
          granted (consume store ⟨a.tokenId, a.maxExecutions, a.expireAtEpoch, nowStore⟩).1 := by
  intro token response
  cases verified : verifyIntentToken P token (tokenExpectation P request) now with
  | error reason => exact .inl (by simp [response, verifyToken, token, verified])
  | ok _ =>
    cases allowance : tokenAllowance P token with
    | error e =>
      exact .inl (by simp [response, verifyToken, token, verified, consumeTokenUsage, allowance])
    | ok inner =>
      rcases inner with reason | _ | a
      · exact .inl (by
          simp [response, verifyToken, token, verified, consumeTokenUsage, allowance])
      · exact .inl (by
          simp [response, verifyToken, token, verified, consumeTokenUsage, allowance])
      · exact .inr ⟨a, rfl, verifyToken_of_accepted P verified allowance⟩

theorem tokenAllowance_ok {allowance : Option TokenAllowance}
    (h : tokenAllowance P token = .ok (.ok allowance)) :
    ∃ scope, normalizeIntentScope P (token.get "intent") = .ok scope ∧
      ((getObject scope "executionPolicy" = none ∧ allowance = none) ∨
        ∃ policy expiry, getObject scope "executionPolicy" = some policy ∧
          tokenExpiry P token = some expiry ∧ allowance = some ⟨strTrimmed P token "tokenId",
            ((policy.get "maxExecutions").bind asInt).getD 0, expiry⟩) := by
  by_cases missing : strTrimmed P token "tokenId" = ""
  · simp [tokenAllowance, missing] at h
  · simp only [tokenAllowance, missing, if_false] at h
    cases normalized : normalizeIntentScope P (token.get "intent") with
    | error e => simp [normalized] at h
    | ok scope =>
      refine ⟨scope, rfl, ?_⟩
      cases found : getObject scope "executionPolicy" with
      | none =>
        simp only [normalized, found, Except.ok.injEq] at h
        exact .inl ⟨rfl, h.symm⟩
      | some policy =>
        cases parsed : P.parseIsoZ (strTrimmed P token "expireAt") with
        | none => simp [normalized, found, parsed] at h
        | some expiry =>
          simp only [normalized, found, parsed, Except.ok.injEq] at h
          exact .inr ⟨policy, expiry, rfl, parsed, h.symm⟩

theorem tokenAllowance_ne_none
    (limited : executionLimit P token = some limit) : tokenAllowance P token ≠ .ok (.ok none) := by
  intro h
  obtain ⟨scope, normalized, ⟨absent, _⟩ | ⟨_, _, _, _, impossible⟩⟩ := tokenAllowance_ok P h
  · simp [executionLimit, normalized, Except.toOption, absent] at limited
  · cases impossible

theorem tokenAllowance_some (limited : executionLimit P token = some limit)
    (h : tokenAllowance P token = .ok (.ok (some a))) :
    trim a.tokenId = a.tokenId ∧ tokenExpiry P token = some a.expireAtEpoch ∧
      a.maxExecutions = limit := by
  obtain ⟨scope, normalized, ⟨_, impossible⟩ | ⟨policy, expiry, found, parsed, eq⟩⟩ :=
    tokenAllowance_ok P h
  · cases impossible
  · cases eq
    refine ⟨trim_strTrimmed P token "tokenId", parsed, ?_⟩
    simp only [executionLimit, normalized, Except.toOption, found, Option.bind_eq_bind,
      Option.bind_some] at limited
    simp [limited]

/-! ### Counting one allowance -/

/-- The row of the allowance says at least `n` and at most the limit. -/
structure Counted (a : TokenAllowance) (n : Nat) (rows : UsageRows) : Prop where
  kept : n ≠ 0 → ∃ row, rows.get? a.tokenId = some row ∧
    row.executionsLimit = a.maxExecutions ∧ row.expireAtEpoch = a.expireAtEpoch
  covered : ∀ row, rows.get? a.tokenId = some row → row.executionsLimit = a.maxExecutions →
    row.expireAtEpoch = a.expireAtEpoch → n ≤ row.executionsUsed ∧
      row.executionsUsed ≤ a.maxExecutions

theorem counted_empty (a : TokenAllowance) : Counted a 0 OrderedMap.empty :=
  ⟨fun h => absurd rfl h, fun row found => by simp at found⟩

variable (h : Counted a n rows)

include h

theorem Counted.le (nonneg : 0 ≤ a.maxExecutions) : (n : Int) ≤ a.maxExecutions := by
  by_cases zero : n = 0
  · simpa [zero] using nonneg
  · obtain ⟨row, found, limit, expiry⟩ := h.kept zero
    have := h.covered row found limit expiry
    omega

theorem Counted.prune (before : now < a.expireAtEpoch) : Counted a n (prune rows now) := by
  refine ⟨fun zero => ?_, fun row found => ?_⟩
  · obtain ⟨row, found, limit, expiry⟩ := h.kept zero
    have live : row.live now = true := by simpa [UsageRow.live, expiry] using before
    exact ⟨row, by simp [get?_prune, found, live], limit, expiry⟩
  · rw [get?_prune, Option.filter_eq_some_iff] at found
    exact h.covered row found.1

/-- No call that the store serves before the expiry loses count. -/
theorem Counted.consume {call : ConsumeCall} {outcome : ConsumeResult × UsageRows}
    (effect : ConsumeEffect rows call outcome) (before : call.now < a.expireAtEpoch) :
    Counted a n outcome.2 := by
  have pruned := h.prune before
  cases effect with
  | refused _ unchanged =>
    rcases unchanged with rfl | rfl
    · exact h
    · exact pruned
  | started valid absent =>
    rename_i id
    by_cases same : a.tokenId = id
    · have zero : n = 0 := by
        by_contra ne
        obtain ⟨row, found, _⟩ := pruned.kept ne
        rw [same, absent] at found
        cases found
      refine ⟨fun ne => absurd zero ne, fun row found limit _ => ?_⟩
      simp only [same, get?_insert_self, Option.some.injEq] at found
      subst found
      have := (validateConsumeArguments_ok valid).2
      simp only at limit
      constructor <;> simp only [zero] <;> omega
    · refine ⟨fun ne => ?_, fun row found => ?_⟩
      · simpa [get?_insert_of_ne same] using pruned.kept ne
      · simp only [get?_insert_of_ne same] at found
        exact pruned.covered row found
  | continued valid found limit expiry room =>
    rename_i id row
    by_cases same : a.tokenId = id
    · subst same
      refine ⟨fun ne => ?_, fun row' found' limit' expiry' => ?_⟩
      · obtain ⟨old, hold, holdLimit, holdExpiry⟩ := pruned.kept ne
        rw [found, Option.some.injEq] at hold
        subst hold
        exact ⟨_, get?_insert_self, holdLimit, holdExpiry⟩
      · simp only [get?_insert_self, Option.some.injEq] at found'
        subst found'
        have := pruned.covered row found limit' expiry'
        simp only at limit' ⊢
        omega
    · refine ⟨fun ne => ?_, fun row' found' => ?_⟩
      · simpa [get?_insert_of_ne same] using pruned.kept ne
      · simp only [get?_insert_of_ne same] at found'
        exact pruned.covered row' found'

/-- A consumed execution of the allowance is counted. -/
theorem Counted.consumed
    {outcome : ConsumeResult × UsageRows} (trimmed : trim a.tokenId = a.tokenId)
    (effect : ConsumeEffect rows ⟨a.tokenId, a.maxExecutions, a.expireAtEpoch, now⟩ outcome)
    (before : now < a.expireAtEpoch) (ok : granted outcome.1 = true) :
    Counted a (n + 1) outcome.2 := by
  have pruned := h.prune before
  cases effect with
  | @refused result rows' refuses _ =>
    rcases result with e | ⟨_ | _, used⟩
    · cases ok
    · cases ok
    · exact absurd rfl (refuses used)
  | started valid absent =>
    obtain ⟨rfl, positive⟩ := validateConsumeArguments_ok valid
    simp only [trimmed] at absent positive ⊢
    have zero : n = 0 := by
      by_contra ne
      obtain ⟨row, found, _⟩ := pruned.kept ne
      rw [absent] at found
      cases found
    refine ⟨fun _ => ⟨_, get?_insert_self, rfl, rfl⟩, fun row found _ _ => ?_⟩
    rw [get?_insert_self, Option.some.injEq] at found
    subst found
    simp only [zero]
    omega
  | continued valid found limit expiry room =>
    rename_i row
    obtain ⟨rfl, positive⟩ := validateConsumeArguments_ok valid
    simp only [trimmed] at found limit expiry room ⊢
    refine ⟨fun _ => ⟨_, get?_insert_self, limit, expiry⟩, fun row' found' _ _ => ?_⟩
    rw [get?_insert_self, Option.some.injEq] at found'
    subst found'
    have := pruned.covered row found limit expiry
    simp only
    omega

omit h

/-! ### Runs -/

theorem validCalls_cons (token : JsonDict) (rows : UsageRows) (call : VerifyCall)
    (calls : List VerifyCall) :
    validCalls P kind token rows (call :: calls) =
      validCalls P kind token (serveVerify P kind rows call).2 calls +
        if call.token = token ∧ (serveVerify P kind rows call).1.valid = true then 1 else 0 := by
  simp [validCalls, answers, List.countP_cons]

theorem counted_serveVerify (limited : executionLimit P token = some limit)
    (allowance : tokenAllowance P token = .ok (.ok (some a))) (h : Counted a n rows)
    (before : call.nowStore < a.expireAtEpoch) :
    Counted a (n + if call.token = token ∧ (serveVerify P kind rows call).1.valid = true
      then 1 else 0) (serveVerify P kind rows call).2 := by
  rcases verifyToken_cases P (kind.consume call.available) rows call.request call.now
    call.nowStore with ⟨unchanged, unlimited⟩ | ⟨b, hb, rows', valid⟩
  · have none_valid : ¬ (call.token = token ∧ (serveVerify P kind rows call).1.valid = true) := by
      rintro ⟨rfl, valid⟩
      exact tokenAllowance_ne_none P limited (unlimited valid)
    rw [if_neg none_valid, serveVerify, unchanged]
    exact h
  · have effect := kind.consume_effect call.available rows
      ⟨b.tokenId, b.maxExecutions, b.expireAtEpoch, call.nowStore⟩
    split_ifs with counts
    · obtain ⟨rfl, isValid⟩ := counts
      have same : b = a := by
        have := hb.symm.trans allowance
        simpa using this
      subst same
      rw [serveVerify, rows']
      exact h.consumed (tokenAllowance_some P limited allowance).1 effect before
        (valid.symm.trans isValid)
    · rw [serveVerify, rows']
      exact h.consume effect before

theorem accepted_of_valid
    (valid : (serveVerify P kind rows call).1.valid = true) : call.accepted P := by
  unfold VerifyCall.accepted
  cases verified : verifyIntentToken P call.token (tokenExpectation P call.request) call.now with
  | ok _ => rfl
  | error reason =>
    rw [VerifyCall.token] at verified
    simp [serveVerify, verifyToken, verified] at valid

theorem validCalls_eq_zero : ∀ {calls : List VerifyCall} (rows : UsageRows),
    (∀ call ∈ calls, call.token = token → ∀ rows, (serveVerify P kind rows call).1.valid ≠ true) →
      validCalls P kind token rows calls = 0
  | [], _, _ => rfl
  | call :: calls, rows, invalid => by
    have rest := validCalls_eq_zero (serveVerify P kind rows call).2
      fun c mem => invalid c (List.mem_cons_of_mem _ mem)
    have first : ¬ (call.token = token ∧ (serveVerify P kind rows call).1.valid = true) :=
      fun ⟨same, valid⟩ => invalid call List.mem_cons_self same rows valid
    rw [validCalls_cons, rest, if_neg first]

theorem StoreBeforeExpiry.tail {calls : List VerifyCall}
    (h : StoreBeforeExpiry P token (call :: calls)) : StoreBeforeExpiry P token calls := by
  intro before c after split same accepted expiry parsed earlier mem
  refine h (call :: before) c after (by rw [split, List.cons_append]) same accepted expiry parsed
    earlier ?_
  exact List.mem_cons_of_mem _ mem

theorem StoreBeforeExpiry.none_accepted
    {calls : List VerifyCall} {expiry : Int} (h : StoreBeforeExpiry P token (call :: calls))
    (parsed : tokenExpiry P token = some expiry) (late : expiry ≤ call.nowStore) :
    ∀ c ∈ call :: calls, c.token = token → ¬ c.accepted P := by
  intro c mem same accepted
  obtain ⟨before, after, split⟩ := List.append_of_mem mem
  have early := h before c after split same accepted expiry parsed
  cases before with
  | nil =>
    cases split
    exact absurd (early call (by simp)) (by omega)
  | cons head rest =>
    cases split
    exact absurd (early call (by simp)) (by omega)

theorem counted_add_validCalls_le
    (limited : executionLimit P token = some limit) (nonneg : 0 ≤ limit)
    (allowance : tokenAllowance P token = .ok (.ok (some a))) :
    ∀ {calls : List VerifyCall} {n : Nat} {rows : UsageRows}, Counted a n rows →
      StoreBeforeExpiry P token calls → (n + validCalls P kind token rows calls : Int) ≤ limit := by
  obtain ⟨_, parsed, hlimit⟩ := tokenAllowance_some P limited allowance
  intro calls
  induction calls with
  | nil =>
    intro n rows h _
    have := h.le (by omega)
    simpa [validCalls, hlimit] using this
  | cons call calls ih =>
    intro n rows h condition
    by_cases before : call.nowStore < a.expireAtEpoch
    · have step := counted_serveVerify P kind limited allowance h before
      have rest := ih step condition.tail
      rw [validCalls_cons]
      omega
    · have late := condition.none_accepted P parsed (by omega)
      have zero := validCalls_eq_zero P kind rows fun c mem same rows valid =>
        late c mem same (accepted_of_valid P kind valid)
      have := h.le (by omega)
      omega

theorem executionLimit_pos (limited : executionLimit P token = some limit) : 0 < limit := by
  cases normalized : normalizeIntentScope P (token.get "intent") with
  | error e => simp [executionLimit, normalized, Except.toOption] at limited
  | ok scope =>
    obtain ⟨actions, _, rfl | ⟨n, positive, bound, rfl⟩⟩ := normalizeIntentScope_eq P normalized
    · rw [executionLimit, normalized] at limited
      cases limited
    · have fits := Number.asI64_ofI64 (i := n) (by omega) bound
      rw [executionLimit, normalized] at limited
      have : some n = some limit := fits.symm.trans limited
      cases this
      exact positive

/-- At most `maxExecutions` calls on a token are valid, if the store is before its expiry. -/
theorem validCalls_le_limit (token : JsonDict) (limit : Int) (calls : List VerifyCall)
    (limited : executionLimit P token = some limit)
    (condition : StoreBeforeExpiry P token calls) :
    (validCalls P kind token OrderedMap.empty calls : Int) ≤ limit := by
  have positive := executionLimit_pos P limited
  by_cases allowance : ∃ a, tokenAllowance P token = .ok (.ok (some a))
  · obtain ⟨a, allowance⟩ := allowance
    simpa using counted_add_validCalls_le P kind limited (by omega) allowance (counted_empty a)
      condition
  · have zero : validCalls P kind token OrderedMap.empty calls = 0 :=
      validCalls_eq_zero P kind OrderedMap.empty fun call _ same rows valid => by
        rcases verifyToken_cases P (kind.consume call.available) rows call.request call.now
          call.nowStore with ⟨_, unlimited⟩ | ⟨a, found, _⟩
        · exact tokenAllowance_ne_none P limited (same ▸ unlimited valid)
        · exact allowance ⟨a, same ▸ found⟩
    omega

end

/-! ### The boundary second -/

/-- The public key of the development intent key. -/
def sampleVerifyingKey : Bytes :=
  [225, 71, 95, 112, 128, 86, 192, 30, 242, 4, 46, 114, 85, 131, 219, 105, 1, 188, 47, 153, 219,
    48, 254, 66, 226, 69, 161, 43, 72, 30, 247, 220]

/-- The seed of the development intent key, SHA-256 of its label. -/
def sampleSigningKey : Bytes :=
  [0, 29, 71, 223, 139, 204, 91, 123, 179, 43, 237, 118, 182, 40, 87, 47, 214, 133, 52, 28, 241,
    58, 96, 93, 130, 18, 185, 162, 94, 105, 59, 143]

def sampleSigningInput : String :=
  "\x7b\"scope\":\"server.intent_token\",\"token\":\x7b\"expireAt\":\"2026-07-22T04:00:00Z\",\"intent\":\x7b\"actions\":[\x7b\"allowExtraParams\":false,\"name\":\"pay\",\"params\":\x7b\x7d\x7d],\"executionPolicy\":\x7b\"maxExecutions\":1\x7d\x7d,\"issuedAt\":\"2026-07-22T03:00:00Z\",\"mandateId\":\"mdt_1\",\"nonce\":\"AAAAAAAAAAAAAAAAAAAAAA\",\"subject\":\x7b\"id\":\"agent:a1\",\"type\":\"agent\"\x7d,\"tokenId\":\"0f1e2d3c4b5a69788796a5b4c3d2e1f0\",\"type\":\"a4p/v1/intent-token\",\"user\":\x7b\"id\":\"u1\"\x7d\x7d\x7d"

/-- The Ed25519 signature of `sampleSigningInput` under that key. -/
def sampleSignature : Bytes :=
  [95, 95, 60, 235, 131, 73, 121, 23, 4, 190, 49, 91, 43, 84, 173, 16, 73, 234, 26, 232, 252, 173,
    68, 9, 207, 24, 179, 73, 12, 38, 107, 158, 230, 115, 158, 148, 143, 24, 65, 233, 227, 92, 21,
    142, 14, 140, 172, 157, 81, 126, 25, 24, 189, 129, 83, 16, 130, 210, 190, 149, 115, 53, 74, 9]

/-- The platform at the values that one token verification asks for. -/
def samplePlatform : Platform where
  floatDisplay _ := ""
  floatLowerExp _ := ""
  toLowercase s := String.ofList (s.toList.map Char.toLower)
  parseIsoZ s := if s = "2026-07-22T04:00:00Z" then some 1784692800 else none
  formatIsoZ _ := ""
  formatBeijingDisplayTime s := s
  sha256 _ := []
  isVerifyingKey key := decide (key = sampleVerifyingKey)
  verifyingKey key := if key = sampleSigningKey then sampleVerifyingKey else []
  ed25519Sign _ _ := sampleSignature
  ed25519Verify key text signature :=
    decide (key = sampleVerifyingKey ∧ text = sampleSigningInput ∧ signature = sampleSignature)
  intentServerSigningKey := .ok sampleSigningKey
  operationServerSigningKey := .error (.runtime "")

/-- A token for one execution, valid until 2026-07-22T04:00:00Z. -/
def sampleToken : JsonDict :=
  [("type", .str "a4p/v1/intent-token"),
    ("tokenId", .str "0f1e2d3c4b5a69788796a5b4c3d2e1f0"),
    ("mandateId", .str "mdt_1"),
    ("subject", .obj [("type", .str "agent"), ("id", .str "agent:a1")]),
    ("user", .obj [("id", .str "u1")]),
    ("intent", .obj [("actions", .arr [.obj [("name", .str "pay"), ("params", .obj []),
      ("allowExtraParams", .bool false)]]),
      ("executionPolicy", .obj [("maxExecutions", .num (.posInt 1 (by decide)))])]),
    ("issuedAt", .str "2026-07-22T03:00:00Z"),
    ("expireAt", .str "2026-07-22T04:00:00Z"),
    ("nonce", .str "AAAAAAAAAAAAAAAAAAAAAA"),
    ("signature", .str
      "X18864NJeRcEvjFbK1StEEnqGuj8rUQJzxizSQwma57mc56UjxhB6eNcFY4OjKydUX4ZGL2BUxCC0r6VczVKCQ"),
    ("alg", .str "EdDSA"),
    ("keyId", .str "server#intent-token-v1:mdt_1")]

/-- A call on `sampleToken` that the verifier and the store serve at `now`. -/
def sampleCall (now : Int) : VerifyCall :=
  ⟨[("token", .obj sampleToken), ("expected", .obj [("action", .str "pay")])], now, now, true⟩

/-- Both stores: a token for one execution is valid twice in the second of its
expiry. -/
theorem limit_exceeded_at_expiry :
    let calls := [sampleCall 1784692800, sampleCall 1784692800]
    executionLimit samplePlatform sampleToken = some 1 ∧
      calls.Pairwise (fun a b => a.now ≤ a.nowStore ∧ a.nowStore ≤ b.now) ∧
      validCalls samplePlatform .inMemory sampleToken OrderedMap.empty calls = 2 ∧
      validCalls samplePlatform .sqlite sampleToken OrderedMap.empty calls = 2 := by
  decide +kernel

/-- One second earlier the second call is refused. -/
theorem validCalls_le_limit_before_expiry :
    let calls := [sampleCall 1784692799, sampleCall 1784692799]
    StoreBeforeExpiry samplePlatform sampleToken calls ∧
      (validCalls samplePlatform .sqlite sampleToken OrderedMap.empty calls : Int) ≤ 1 ∧
      validCalls samplePlatform .sqlite sampleToken OrderedMap.empty calls = 1 := by
  intro calls
  have condition : StoreBeforeExpiry samplePlatform sampleToken calls := by
    intro before call after split _ _ expiry parsed earlier mem
    have known : tokenExpiry samplePlatform sampleToken = some 1784692800 := rfl
    have here : earlier ∈ calls := by
      rw [split]
      simp only [List.mem_append, List.mem_cons] at mem ⊢
      tauto
    rw [known, Option.some.injEq] at parsed
    simp only [calls, List.mem_cons, List.not_mem_nil, or_false, or_self] at here
    simp [here, sampleCall, ← parsed]
  exact ⟨condition, validCalls_le_limit samplePlatform .sqlite sampleToken 1 calls rfl condition,
    by decide +kernel⟩

end AgentProtocols.A4P
