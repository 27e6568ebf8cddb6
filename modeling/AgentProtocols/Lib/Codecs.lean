import AgentProtocols.Lib.Checks

/-!
Encoders and decoders that can fail. `Codec.Lawful`: what is written of a readable value is read as
its normal form (`restored`), and what is accepted is readable, normal and can be written
(`accepted`). The two round trips follow (`Lawful.roundTrips`).
-/

namespace AgentProtocols.Lib

/-- An encoder to `ω` and a decoder from it, with errors in `ε`. -/
structure Codec (ε ω α : Type) where
  encode : α → Except ε ω
  decode : ω → Except ε α

namespace Codec

variable {ε ω α : Type} {c : Codec ε ω α} {normal : α → α} {Readable : α → Prop}

/-- What the two round trips preserve. -/
structure Lawful (c : Codec ε ω α) (normal : α → α) (Readable : α → Prop) : Prop where
  restored : ∀ {x : α} {w : ω}, Readable x → c.encode x = .ok w → c.decode w = .ok (normal x)
  accepted : ∀ {w : ω} {x : α}, c.decode w = .ok x →
    Readable x ∧ normal x = x ∧ ∃ w', c.encode x = .ok w'

/-- From a readable value to its normal form, and from what is accepted to itself. -/
def RoundTrips (c : Codec ε ω α) (normal : α → α) (Readable : α → Prop) : Prop :=
  (∀ x w, Readable x → c.encode x = .ok w → c.decode w = .ok (normal x)) ∧
    ∀ w x, c.decode w = .ok x → ∃ w', c.encode x = .ok w' ∧ c.decode w' = .ok x

theorem Lawful.roundTrips (lawful : c.Lawful normal Readable) : c.RoundTrips normal Readable := by
  refine ⟨fun x w readable written => lawful.restored readable written, fun w x accepted => ?_⟩
  obtain ⟨readable, fixed, w', written⟩ := lawful.accepted accepted
  refine ⟨w', written, ?_⟩
  rw [lawful.restored readable written, fixed]

/-! ### Lists and options -/

/-- A list, element by element. -/
def list (c : Codec ε ω α) : Codec ε (List ω) (List α) := ⟨List.mapM c.encode, List.mapM c.decode⟩

/-- An optional value. -/
def option (c : Codec ε ω α) : Codec ε (Option ω) (Option α) :=
  ⟨Option.mapM c.encode, Option.mapM c.decode⟩

theorem bind_ok {α β : Type} {x : Except ε α} {f : α → Except ε β} {a : α} {b : β}
    (first : x = .ok a) (next : f a = .ok b) : x >>= f = .ok b :=
  bind_eq_ok.mpr ⟨a, first, next⟩

variable {β : Type} {f : α → Except ε β} {a : α}

theorem option_mapM_some_eq_ok {out : Option β} :
    (some a).mapM f = .ok out ↔ ∃ b, f a = .ok b ∧ out = some b := by
  constructor
  · intro mapped
    obtain ⟨b, first, same⟩ := bind_eq_ok.mp mapped
    cases same
    exact ⟨b, first, rfl⟩
  · rintro ⟨b, first, rfl⟩
    exact bind_eq_ok.mpr ⟨b, first, rfl⟩

theorem Lawful.list_restored (lawful : c.Lawful normal Readable) : ∀ {xs : List α} {ws : List ω},
    (∀ x ∈ xs, Readable x) → xs.mapM c.encode = .ok ws → ws.mapM c.decode = .ok (xs.map normal)
  | [], ws, _, written => by
    cases written
    rfl
  | x :: xs, ws, readable, written => by
    obtain ⟨w, rest, first, others, rfl⟩ := mapM_cons_eq_ok.mp written
    obtain ⟨head, tail⟩ := List.forall_mem_cons.mp readable
    exact mapM_cons_eq_ok.mpr
      ⟨normal x, xs.map normal, lawful.restored head first, lawful.list_restored tail others, rfl⟩

theorem Lawful.list_accepted (lawful : c.Lawful normal Readable) : ∀ {ws : List ω} {xs : List α},
    ws.mapM c.decode = .ok xs →
      (∀ x ∈ xs, Readable x) ∧ xs.map normal = xs ∧ ∃ ws', xs.mapM c.encode = .ok ws'
  | [], xs, read => by
    cases read
    exact ⟨fun x mem => absurd mem List.not_mem_nil, rfl, [], rfl⟩
  | w :: ws, xs, read => by
    obtain ⟨x, rest, first, others, rfl⟩ := mapM_cons_eq_ok.mp read
    obtain ⟨readable, fixed, w', written⟩ := lawful.accepted first
    obtain ⟨readable', fixed', ws', written'⟩ := lawful.list_accepted others
    refine ⟨List.forall_mem_cons.mpr ⟨readable, readable'⟩, ?_, w' :: ws',
      mapM_cons_eq_ok.mpr ⟨w', ws', written, written', rfl⟩⟩
    rw [List.map_cons, fixed, fixed']

theorem Lawful.list (lawful : c.Lawful normal Readable) :
    c.list.Lawful (List.map normal) (fun xs => ∀ x ∈ xs, Readable x) :=
  ⟨lawful.list_restored, lawful.list_accepted⟩

theorem Lawful.option (lawful : c.Lawful normal Readable) :
    c.option.Lawful (Option.map normal) (fun x => ∀ a ∈ x, Readable a) where
  restored := by
    intro x w readable written
    cases x with
    | none =>
      cases written
      rfl
    | some a =>
      obtain ⟨b, first, rfl⟩ := option_mapM_some_eq_ok.mp written
      exact option_mapM_some_eq_ok.mpr ⟨_, lawful.restored (readable a rfl) first, rfl⟩
  accepted := by
    intro w x read
    cases w with
    | none =>
      cases read
      exact ⟨fun a mem => absurd mem (Option.not_mem_none a), rfl, none, rfl⟩
    | some b =>
      obtain ⟨a, first, rfl⟩ := option_mapM_some_eq_ok.mp read
      obtain ⟨readable, fixed, b', written⟩ := lawful.accepted first
      refine ⟨?_, congrArg some fixed, some b', option_mapM_some_eq_ok.mpr ⟨b', written, rfl⟩⟩
      rintro a' ⟨⟩
      exact readable

end Codec

end AgentProtocols.Lib
