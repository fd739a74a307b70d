import WordMachine.Json.Record
import WordMachine.Proofs.Json.Lexeme

namespace WordMachine.Json

theorem skip_literal (value : Literal) (rest : List Token) :
    skip (value.token :: rest) = .ok rest := by
  have htake : Skipping.take ⟨.value, []⟩ value.token = .ok ⟨.after, []⟩ := by
    cases value <;> rfl
  have hdone : Skipping.rest ⟨.after, []⟩ rest = .ok rest := by
    cases rest <;> rfl
  rw [skip, Skipping.rest]
  simp [Skipping.isDone, htake]
  exact hdone

namespace Lexeme

variable {α : Type} (write : α → List Lexeme)

-- The members of an object after the first one, and its end.
def tail : List (String × α) → List Lexeme
  | [] => [closeBrace]
  | (key, value) :: members =>
    comma :: literal (.text key) :: colon :: (write value ++ tail members)

def object : List (String × α) → List Lexeme
  | [] => [openBrace, closeBrace]
  | (key, value) :: members =>
    openBrace :: literal (.text key) :: colon :: (write value ++ tail write members)

theorem length_lt_tail (members : List (String × α)) :
    members.length < (tail write members).length := by
  induction members with
  | nil => exact Nat.zero_lt_one
  | cons member members ih =>
    simp only [tail, List.length_cons, List.length_append]
    omega

variable {write}

-- Only a literal asks for anything of what follows it.
theorem isChain_cons {lexeme : Lexeme} (hnot : ∀ value, lexeme ≠ literal value)
    {lexemes : List Lexeme} (h : List.IsChain Apart lexemes) :
    List.IsChain Apart (lexeme :: lexemes) := by
  rw [List.isChain_cons]
  exact ⟨fun next _ value hvalue => absurd hvalue (hnot value), h⟩

variable (hwrite : ∀ value, List.IsChain Apart (write value))

include hwrite

theorem isChain_member (key : String) (value : α) {members : List (String × α)}
    (h : List.IsChain Apart (tail write members)) :
    List.IsChain Apart (literal (.text key) :: colon :: (write value ++ tail write members)) := by
  have hvalue : List.IsChain Apart (write value ++ tail write members) := by
    refine List.isChain_append.mpr ⟨hwrite value, h, ?_⟩
    intro last _ next hnext _ _
    cases members with
    | nil => exact .inr (.inr (Option.some.inj hnext).symm)
    | cons member members => exact .inr (.inl (Option.some.inj hnext).symm)
  refine List.isChain_cons_cons.mpr ⟨fun _ _ => .inl rfl, isChain_cons ?_ hvalue⟩
  intro value h
  cases h

theorem isChain_tail (members : List (String × α)) : List.IsChain Apart (tail write members) := by
  induction members with
  | nil => exact List.isChain_singleton _
  | cons member members ih =>
    refine isChain_cons ?_ (isChain_member hwrite member.1 member.2 ih)
    intro value h
    cases h

theorem isChain_object (members : List (String × α)) :
    List.IsChain Apart (object write members) := by
  have hbrace (value : Literal) : openBrace ≠ literal value := by
    intro h
    cases h
  cases members with
  | nil => exact isChain_cons hbrace (List.isChain_singleton _)
  | cons member members =>
    have htail := isChain_tail hwrite members
    exact isChain_cons hbrace (isChain_member hwrite member.1 member.2 htail)

end Lexeme

-- A value as it may be written: a literal, or an object of literals.
inductive Value where
  | literal (value : Literal)
  | object (members : List (String × Literal))
  deriving DecidableEq, Repr

def Literal.lexemes (value : Literal) : List Lexeme :=
  [.literal value]

def Value.lexemes : Value → List Lexeme
  | literal value => value.lexemes
  | object members => Lexeme.object Literal.lexemes members

theorem isChain_literal (value : Literal) : List.IsChain Lexeme.Apart value.lexemes :=
  List.isChain_singleton _

theorem isChain_value (value : Value) : List.IsChain Lexeme.Apart value.lexemes := by
  cases value with
  | literal value => exact isChain_literal value
  | object members => exact Lexeme.isChain_object isChain_literal members

section Given

variable {α : Type} {name key : String} {optional : Prop} {accepts : α → Prop} {value : α}
  {members : List (String × α)}

-- A name that is given once at most: with a value that is accepted, or not at all where this is
-- an option.
def Given (name : String) (optional : Prop) (accepts : α → Prop) (members : List (String × α)) :
    Prop :=
  match members.filter (·.1 = name) with
  | [] => optional
  | [member] => accepts member.2
  | _ => False

theorem given_cons_of_ne (h : key ≠ name) :
    Given name optional accepts ((key, value) :: members) ↔
      Given name optional accepts members := by
  simp [Given, h]

theorem given_cons_self :
    Given name optional accepts ((name, value) :: members) ↔
      accepts value ∧ Given name True (fun _ => False) members := by
  simp only [Given, List.filter_cons, decide_true, ite_true]
  cases members.filter (·.1 = name) with
  | nil => simp
  | cons member rest => cases rest <;> simp

theorem Given.mono {optional' : Prop} {accepts' : α → Prop}
    (h : Given name optional accepts members) (ho : optional → optional')
    (ha : ∀ value, accepts value → accepts' value) : Given name optional' accepts' members := by
  revert h
  unfold Given
  cases members.filter (·.1 = name) with
  | nil => exact ho
  | cons member rest =>
    cases rest with
    | nil => exact ha _
    | cons next rest => exact id

end Given

namespace Record

variable {σ α : Type} (fields : List (Field σ)) (write : α → List Lexeme)
  (Pending : σ → List (String × α) → Prop)

-- What is pending before a member is pending after it, for the members that follow.
def Takes : Prop :=
  ∀ state key value members, Pending state ((key, value) :: members) →
    ∃ next, Pending next members ∧ ∀ rest,
      member fields key state (.colon :: ((write value).map Lexeme.token ++ rest)) =
        .ok (next, rest)

variable {fields write Pending}

-- A key that is no field may have any literal.
theorem member_of_unknown {key : String} (h : key ∉ fields.map (·.name)) (state : σ)
    (value : Literal) (rest : List Token) :
    member fields key state (.colon :: value.token :: rest) = .ok (state, rest) := by
  have hnone : fields.find? (·.name = key) = none := by
    simpa [List.find?_eq_none] using h
  simp only [member, hnone, Reading.colon, bind, Except.bind, skip_literal]
  rfl

theorem member_of_field {field : Field σ} {key : String} {state next : σ}
    (hfind : fields.find? (·.name = key) = some field) (hunset : field.isSet state = false)
    {tokens rest : List Token} (hread : field.read state tokens = .ok (next, rest)) :
    member fields key state (.colon :: tokens) = .ok (next, rest) := by
  simp [member, hfind, hunset, Reading.colon, bind, Except.bind, hread]

section Member

variable {key : String} {state next : σ} {tokens rest : List Token}
  (h : member fields key state tokens = .ok (next, rest)) (fuel : Nat)
  (skipped : Except Problem Unit)

include h

theorem members_first :
    members fields (fuel + 1) true state (.text (.ok key) skipped :: tokens) =
      members fields fuel false next rest := by
  rw [members]
  simp only [bind, Except.bind, h]

theorem members_next :
    members fields (fuel + 1) false state (.comma :: .text (.ok key) skipped :: tokens) =
      members fields fuel false next rest := by
  rw [members]
  simp only [bind, Except.bind, h]

end Member

variable (htakes : Takes fields write Pending)

include htakes

theorem members_of_takes {state : σ} {remaining : List (String × α)}
    (h : Pending state remaining) :
    ∃ last, Pending last [] ∧ ∀ fuel rest, remaining.length < fuel →
      members fields fuel false state ((Lexeme.tail write remaining).map Lexeme.token ++ rest) =
        .ok (last, rest) := by
  induction remaining generalizing state with
  | nil =>
    refine ⟨state, h, ?_⟩
    intro fuel rest hfuel
    cases fuel with
    | zero => cases hfuel
    | succ fuel => rfl
  | cons pair remaining ih =>
    obtain ⟨key, value⟩ := pair
    obtain ⟨next, hnext, hmember⟩ := htakes state key value remaining h
    obtain ⟨last, hlast, hmembers⟩ := ih hnext
    refine ⟨last, hlast, ?_⟩
    intro fuel rest hfuel
    cases fuel with
    | zero => cases hfuel
    | succ fuel =>
      have htokens : (Lexeme.tail write ((key, value) :: remaining)).map Lexeme.token ++ rest =
          .comma :: .text (.ok key) (.ok ()) :: .colon :: ((write value).map Lexeme.token ++
            ((Lexeme.tail write remaining).map Lexeme.token ++ rest)) := by
        simp [Lexeme.tail, Lexeme.token, Literal.token]
      rw [htokens, members_next (hmember _)]
      exact hmembers fuel rest (Nat.lt_of_succ_lt_succ hfuel)

-- A record is read from an object whose members are taken one by one, whatever stands behind it.
theorem read_object (expected : String) {start : σ} {written : List (String × α)}
    (h : Pending start written) :
    ∃ last, Pending last [] ∧ ∀ rest,
      read expected fields start ((Lexeme.object write written).map Lexeme.token ++ rest) =
        .ok (last, rest) := by
  cases written with
  | nil => exact ⟨start, h, fun rest => rfl⟩
  | cons pair remaining =>
    obtain ⟨key, value⟩ := pair
    obtain ⟨next, hnext, hmember⟩ := htakes start key value remaining h
    obtain ⟨last, hlast, hmembers⟩ := members_of_takes htakes hnext
    have hlength := Lexeme.length_lt_tail write remaining
    refine ⟨last, hlast, ?_⟩
    intro rest
    have htokens : (Lexeme.object write ((key, value) :: remaining)).map Lexeme.token ++ rest =
        .openBrace :: .text (.ok key) (.ok ()) :: .colon :: ((write value).map Lexeme.token ++
          ((Lexeme.tail write remaining).map Lexeme.token ++ rest)) := by
      simp [Lexeme.object, Lexeme.token, Literal.token]
    rw [htokens, read, members_first (hmember _)]
    apply hmembers
    simp only [List.length_cons, List.length_append, List.length_map]
    omega

end Record

end WordMachine.Json
