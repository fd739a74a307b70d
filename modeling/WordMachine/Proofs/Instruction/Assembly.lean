import WordMachine.Instruction.Assembly
import WordMachine.Proofs.Decimal.Integer
import WordMachine.Proofs.Instruction.Opcode
import WordMachine.Proofs.Text.Column

namespace WordMachine

-- The fields of an instruction that an operation uses.
def Operation.usesFirst : Operation → Bool
  | branch _ | call | ret => false
  | _ => true

def Operation.usesSecond : Operation → Bool
  | add | mul | move | load | store | compare => true
  | _ => false

def Operation.usesImmediate : Operation → Bool
  | subImm | addImm | moveImm | load | store | branch _ | call => true
  | _ => false

-- An operand as it is written. A place is that of a word in memory.
inductive Operand where
  | register (index : UInt8)
  | number (value : Int32)
  | place (displacement : Int32) (base : UInt8)
  | distance (value : Int32)
  deriving DecidableEq, Repr

-- What tells the kinds of operands apart, whatever their values.
inductive Operand.Form where
  | register
  | number
  | place
  | distance
  deriving DecidableEq, Repr

namespace Operand

open Instruction (registerText distanceText)

def form : Operand → Form
  | register _ => .register
  | number _ => .number
  | place _ _ => .place
  | distance _ => .distance

def text : Operand → String
  | register index => registerText index
  | number value => "$" ++ Decimal.render value.toInt
  | place displacement base =>
    Decimal.render displacement.toInt ++ "(" ++ registerText base ++ ")"
  | distance value => distanceText value

-- The operands of one instruction, each after a blank, with a comma between them.
def line : List Operand → String
  | [] => ""
  | [operand] => " " ++ operand.text
  | operand :: operands => " " ++ operand.text ++ "," ++ line operands

-- The form of a written operand.
def formOf (text : List Char) : Form :=
  if text.head? = some '%' then .register
  else if text.head? = some '$' then .number
  else if '(' ∈ text then .place
  else .distance

section Register

theorem registerText_of_gt {index : UInt8} (h : 16 < index.toNat) :
    (registerText index).toList = '%' :: 'r' :: (Nat.toDigits 10 index.toNat ++ ['?']) := by
  have hne : index ≠ 16 := by
    rintro rfl
    exact absurd h (by decide)
  have hnone : registerNames[index.toNat]? = none := Vector.getElem?_eq_none (by omega)
  rw [registerText, if_neg hne, hnone, String.toList_append, String.toList_append,
    Decimal.toList_renderNat]
  rfl

-- The registers that exist have names of their own.
theorem registerText_of_le {index : UInt8} (h : index.toNat ≤ 16) :
    (∀ c ∈ (registerText index).toList, c.isAlphanum || c = '%') ∧
      (registerText index).toList.head? = some '%' ∧
      ∀ other : UInt8, other.toNat ≤ 16 → registerText index = registerText other →
        index = other := by
  have hall : ∀ place ∈ List.range 17,
      ((registerText (UInt8.ofNat place)).toList.all fun c => c.isAlphanum || c = '%') ∧
        (registerText (UInt8.ofNat place)).toList.head? = some '%' ∧
        ∀ place' ∈ List.range 17,
          registerText (UInt8.ofNat place) = registerText (UInt8.ofNat place') →
            place = place' := by
    decide
  obtain ⟨hmem, hhead, hinj⟩ := hall index.toNat (List.mem_range.mpr (by omega))
  simp only [UInt8.ofNat_toNat] at hmem hhead hinj
  refine ⟨List.all_eq_true.mp hmem, hhead, ?_⟩
  intro other ho heq
  have hplace := hinj other.toNat (List.mem_range.mpr (by omega))
  simp only [UInt8.ofNat_toNat, UInt8.toNat_inj] at hplace
  exact hplace heq

theorem mem_registerText {index : UInt8} {c : Char} (h : c ∈ (registerText index).toList) :
    c.isAlphanum = true ∨ c = '%' ∨ c = '?' := by
  by_cases hi : index.toNat ≤ 16
  · have hc := (registerText_of_le hi).1 c h
    rw [Bool.or_eq_true, decide_eq_true_eq] at hc
    exact hc.imp_right .inl
  · rw [registerText_of_gt (by omega), List.mem_cons, List.mem_cons, List.mem_append,
      List.mem_singleton] at h
    obtain rfl | rfl | h | rfl := h
    · exact .inr (.inl rfl)
    · exact .inl rfl
    · have hdigit := Nat.isDigit_of_mem_toDigits (by decide) (by decide) h
      exact .inl (by rw [Char.isAlphanum, hdigit, Bool.or_true])
    · exact .inr (.inr rfl)

theorem head?_registerText (index : UInt8) : (registerText index).toList.head? = some '%' := by
  by_cases hi : index.toNat ≤ 16
  · exact (registerText_of_le hi).2.1
  · rw [registerText_of_gt (by omega)]
    rfl

-- A register that does not exist is marked, and so is no name of one that does.
theorem registerText_inj {index other : UInt8} (h : registerText index = registerText other) :
    index = other := by
  have hmark {index other : UInt8} (hi : index.toNat ≤ 16) (ho : 16 < other.toNat) :
      registerText index ≠ registerText other := by
    intro heq
    have hmem : '?' ∈ (registerText other).toList := by
      rw [registerText_of_gt ho]
      simp
    rw [← heq] at hmem
    exact absurd ((registerText_of_le hi).1 _ hmem) (by decide)
  by_cases hi : index.toNat ≤ 16
  · by_cases ho : other.toNat ≤ 16
    · exact (registerText_of_le hi).2.2 other ho h
    · exact absurd h (hmark hi (by omega))
  · by_cases ho : other.toNat ≤ 16
    · exact absurd h.symm (hmark ho (by omega))
    · have hlist := congrArg String.toList h
      rw [registerText_of_gt (by omega), registerText_of_gt (by omega), List.cons.injEq,
        List.cons.injEq] at hlist
      have hdigits := List.append_cancel_right hlist.2.2
      have hvalue := congrArg (Nat.ofDigitChars 10 · 0) hdigits
      simp only [Nat.ofDigitChars_ten_toDigits] at hvalue
      exact UInt8.toNat_inj.mp hvalue

end Register

section Number

theorem toList_distanceText (value : Int32) :
    (distanceText value).toList =
      if value < 0 then (Decimal.render value.toInt).toList
      else '+' :: (Decimal.render value.toInt).toList := by
  rw [distanceText]
  split
  · rfl
  · rw [String.toList_append]
    rfl

theorem notMem_render (value : Int) {c : Char} (hc : c.isDigit = false) (hne : c ≠ '-') :
    c ∉ (Decimal.render value).toList := by
  intro h
  obtain hdigit | hminus := Decimal.mem_render h
  · simp [hc] at hdigit
  · exact hne hminus

theorem render_inj {value other : Int32}
    (h : (Decimal.render value.toInt).toList = (Decimal.render other.toInt).toList) :
    value = other :=
  Int32.toInt_inj.mp (Decimal.render_inj (String.toList_inj.mp h))

theorem notMem_distanceText (value : Int32) {c : Char} (hc : c.isDigit = false)
    (hminus : c ≠ '-') (hplus : c ≠ '+') : c ∉ (distanceText value).toList := by
  rw [toList_distanceText]
  split
  · exact notMem_render _ hc hminus
  · rw [List.mem_cons, not_or]
    exact ⟨hplus, notMem_render _ hc hminus⟩

-- The sign of a distance is written in any case.
theorem distanceText_inj {value other : Int32} (h : distanceText value = distanceText other) :
    value = other := by
  have hplus (value : Int) : '+' ∉ (Decimal.render value).toList :=
    notMem_render value rfl (by decide)
  have hlist := congrArg String.toList h
  rw [toList_distanceText, toList_distanceText] at hlist
  by_cases hv : value < 0
  · by_cases ho : other < 0
    · rw [if_pos hv, if_pos ho] at hlist
      exact render_inj hlist
    · rw [if_pos hv, if_neg ho] at hlist
      exact absurd (hlist ▸ List.mem_cons_self ..) (hplus _)
  · by_cases ho : other < 0
    · rw [if_neg hv, if_pos ho] at hlist
      exact absurd (hlist ▸ List.mem_cons_self ..) (hplus _)
    · rw [if_neg hv, if_neg ho, List.cons.injEq] at hlist
      exact render_inj hlist.2

end Number

section Text

theorem toList_number (value : Int32) :
    (number value).text.toList = '$' :: (Decimal.render value.toInt).toList := by
  rw [text, String.toList_append]
  rfl

theorem toList_place (displacement : Int32) (base : UInt8) :
    (place displacement base).text.toList =
      (Decimal.render displacement.toInt).toList ++
        '(' :: ((registerText base).toList ++ [')']) := by
  rw [text, String.toList_append, String.toList_append, String.toList_append, List.append_assoc,
    List.append_assoc]
  rfl

theorem formOf_text (operand : Operand) : formOf operand.text.toList = operand.form := by
  have hhead {text : List Char} {c : Char} (hc : c ∉ text) : text.head? ≠ some c :=
    fun h => hc (List.mem_of_head? h)
  cases operand with
  | register index => exact if_pos (head?_registerText index)
  | number value =>
    rw [toList_number]
    rfl
  | place displacement base =>
    have hnumber := notMem_render displacement.toInt (c := '%') rfl (by decide)
    have hnumber' := notMem_render displacement.toInt (c := '$') rfl (by decide)
    rw [toList_place]
    unfold formOf
    cases htext : (Decimal.render displacement.toInt).toList with
    | nil => rfl
    | cons c text =>
      rw [htext] at hnumber hnumber'
      have hpercent : some c ≠ some '%' := hhead hnumber
      have hdollar : some c ≠ some '$' := hhead hnumber'
      rw [List.cons_append, List.head?_cons, if_neg hpercent, if_neg hdollar, if_pos (by simp)]
      rfl
  | distance value =>
    have hpercent := notMem_distanceText value (c := '%') rfl (by decide) (by decide)
    have hdollar := notMem_distanceText value (c := '$') rfl (by decide) (by decide)
    have hparenthesis := notMem_distanceText value (c := '(') rfl (by decide) (by decide)
    rw [formOf, text, if_neg (hhead hpercent), if_neg (hhead hdollar), if_neg hparenthesis]
    rfl

theorem text_inj {operand other : Operand} (h : operand.text = other.text) : operand = other := by
  have hlist := congrArg String.toList h
  have hform := congrArg formOf hlist
  rw [formOf_text, formOf_text] at hform
  cases operand with
  | register index =>
    cases other with
    | register index' => rw [registerText_inj h]
    | _ => cases hform
  | number value =>
    cases other with
    | number value' =>
      rw [toList_number, toList_number, List.cons.injEq] at hlist
      rw [render_inj hlist.2]
    | _ => cases hform
  | place displacement base =>
    cases other with
    | place displacement' base' =>
      rw [toList_place, toList_place] at hlist
      obtain ⟨hnumber, hbase⟩ := Text.append_inj_of_breaks hlist
        (notMem_render _ rfl (by decide)) (notMem_render _ rfl (by decide))
        (Text.breaks_cons _ _) (Text.breaks_cons _ _)
      have hregister := List.append_cancel_right (List.cons.inj hbase).2
      rw [render_inj hnumber, registerText_inj (String.toList_inj.mp hregister)]
    | _ => cases hform
  | distance value =>
    cases other with
    | distance value' => rw [distanceText_inj h]
    | _ => cases hform

theorem notMem_text (operand : Operand) {c : Char} (hc : c.isAlphanum = false)
    (hmark : c ∉ "-+%?$()".toList) : c ∉ operand.text.toList := by
  have hdigit : c.isDigit = false := by
    rw [Char.isAlphanum, Bool.or_eq_false_iff] at hc
    exact hc.2
  have hmark : c ≠ '-' ∧ c ≠ '+' ∧ c ≠ '%' ∧ c ≠ '?' ∧ c ≠ '$' ∧ c ≠ '(' ∧ c ≠ ')' := by
    simpa using hmark
  obtain ⟨hminus, hplus, hpercent, hquestion, hdollar, hopening, hclosing⟩ := hmark
  have hnumber (value : Int) : c ∉ (Decimal.render value).toList :=
    notMem_render value hdigit hminus
  have hregister (index : UInt8) : c ∉ (registerText index).toList := by
    intro h
    obtain h | h | h := mem_registerText h
    · simp [hc] at h
    · exact hpercent h
    · exact hquestion h
  cases operand with
  | register index => exact hregister index
  | number value => simp [toList_number, hdollar, hnumber]
  | place displacement base => simp [toList_place, hopening, hclosing, hnumber, hregister]
  | distance value => exact notMem_distanceText value hdigit hminus hplus

theorem comma_notMem_text (operand : Operand) : ',' ∉ operand.text.toList :=
  notMem_text operand rfl (by decide)

end Text

section Line

-- What is written after an operand.
def tail : List Operand → List Char
  | [] => []
  | operands => ',' :: (line operands).toList

theorem toList_line_cons (operand : Operand) (operands : List Operand) :
    (line (operand :: operands)).toList = ' ' :: (operand.text.toList ++ tail operands) := by
  cases operands with
  | nil =>
    rw [line, String.toList_append, tail, List.append_nil]
    rfl
  | cons next operands =>
    rw [line, String.toList_append, String.toList_append, String.toList_append, List.append_assoc,
      List.append_assoc]
    · rfl
    · exact List.cons_ne_nil next operands

theorem breaks_tail (operands : List Operand) : Text.Breaks ',' (tail operands) := by
  cases operands with
  | nil => exact Text.breaks_nil ','
  | cons operand operands => exact Text.breaks_cons ',' _

theorem breaks_line (operands : List Operand) : Text.Breaks ' ' (line operands).toList := by
  cases operands with
  | nil => exact Text.breaks_nil ' '
  | cons operand operands =>
    rw [toList_line_cons]
    exact Text.breaks_cons ' ' _

theorem line_inj {operands others : List Operand}
    (h : (line operands).toList = (line others).toList) : operands = others := by
  induction operands generalizing others with
  | nil =>
    cases others with
    | nil => rfl
    | cons other others =>
      rw [toList_line_cons] at h
      exact absurd h.symm (List.cons_ne_nil _ _)
  | cons operand operands ih =>
    cases others with
    | nil =>
      rw [toList_line_cons] at h
      exact absurd h (List.cons_ne_nil _ _)
    | cons other others =>
      rw [toList_line_cons, toList_line_cons, List.cons.injEq] at h
      obtain ⟨htext, htail⟩ := Text.append_inj_of_breaks h.2 operand.comma_notMem_text
        other.comma_notMem_text (breaks_tail operands) (breaks_tail others)
      obtain rfl := text_inj (String.toList_inj.mp htext)
      have hrest : operands = others := by
        cases operands with
        | nil =>
          cases others with
          | nil => rfl
          | cons other others => exact absurd htail.symm (List.cons_ne_nil _ _)
        | cons next operands =>
          cases others with
          | nil => exact absurd htail (List.cons_ne_nil _ _)
          | cons other others => exact ih (List.cons.inj htail).2
      rw [hrest]

end Line

end Operand

namespace Operation

-- The operands of an instruction in the order in which they are written.
def operands (op : Operation) (i : Instruction) : List Operand :=
  match op with
  | subImm | addImm | moveImm => [.number i.immediate, .register i.first]
  | add | mul | move | compare => [.register i.first, .register i.second]
  | load => [.place i.immediate i.first, .register i.second]
  | store => [.register i.first, .place i.immediate i.second]
  | branch _ | call => [.distance i.immediate]
  | ret => []
  | halve | push | pop | print | read => [.register i.first]

-- Which fields are written is which are used.
theorem operands_eq_iff (op : Operation) (i j : Instruction) :
    op.operands i = op.operands j ↔
      (op.usesFirst → i.first = j.first) ∧ (op.usesSecond → i.second = j.second) ∧
        (op.usesImmediate → i.immediate = j.immediate) := by
  cases op <;>
    simp [operands, usesFirst, usesSecond, usesImmediate, and_assoc, and_comm, and_left_comm]

theorem map_form_operands (op : Operation) (i j : Instruction) :
    (op.operands i).map Operand.form = (op.operands j).map Operand.form := by
  cases op <;> rfl

-- A mnemonic that stands for several operations stands for operands of several forms.
theorem eq_of_forms {op other : Operation} (i : Instruction) (h : op.mnemonic = other.mnemonic)
    (hf : (op.operands i).map Operand.form = (other.operands i).map Operand.form) : op = other := by
  have hall : ∀ op ∈ table, ∀ other ∈ table, op.mnemonic = other.mnemonic →
      (op.operands (.decode 0)).map Operand.form = (other.operands (.decode 0)).map Operand.form →
        op = other := by
    decide
  rw [map_form_operands op i (.decode 0), map_form_operands other i (.decode 0)] at hf
  exact hall op (List.mem_of_getElem? (ofCode?_code op)) other
    (List.mem_of_getElem? (ofCode?_code other)) h hf

theorem mnemonic_plain (op : Operation) :
    ' ' ∉ op.mnemonic.toList ∧ op.mnemonic.toList ≠ ".word".toList := by
  cases op with
  | branch condition => cases condition <;> decide
  | _ => decide

end Operation

namespace Instruction

-- Two instructions of one opcode that agree on the fields it uses. An unassigned opcode uses the
-- whole word.
def AgreeOnUsed (i j : Instruction) : Prop :=
  i.opcode = j.opcode ∧
    match i.operation? with
    | none => i.raw = j.raw
    | some op =>
      (op.usesFirst → i.first = j.first) ∧ (op.usesSecond → i.second = j.second) ∧
        (op.usesImmediate → i.immediate = j.immediate)

theorem toList_assembly_of_operation {i : Instruction} {op : Operation}
    (h : i.operation? = some op) :
    i.assembly.toList = op.mnemonic.toList ++ (Operand.line (op.operands i)).toList := by
  rw [assembly, h, ← String.toList_append]
  cases op <;>
    simp [Operation.operands, Operand.line, Operand.text, String.append_assoc]

theorem toList_assembly_of_none {i : Instruction} (h : i.operation? = none) :
    i.assembly.toList = ".word".toList ++ ' ' :: (Text.hexLiteral 8 i.raw.toNat).toList := by
  rw [assembly, h, String.toList_append]
  rfl

theorem assembly_inj_of_operation {i j : Instruction} {op other : Operation}
    (hi : i.operation? = some op) (hj : j.operation? = some other)
    (h : i.assembly = j.assembly) : op = other ∧ op.operands i = op.operands j := by
  have hlist := congrArg String.toList h
  rw [toList_assembly_of_operation hi, toList_assembly_of_operation hj] at hlist
  obtain ⟨hmnemonic, hline⟩ := Text.append_inj_of_breaks hlist op.mnemonic_plain.1
    other.mnemonic_plain.1 (Operand.breaks_line _) (Operand.breaks_line _)
  have hoperands := Operand.line_inj hline
  have hforms : (op.operands i).map Operand.form = (other.operands i).map Operand.form := by
    rw [hoperands, other.map_form_operands j i]
  obtain rfl := Operation.eq_of_forms i (String.toList_inj.mp hmnemonic) hforms
  exact ⟨rfl, hoperands⟩

-- No operation is written as data is.
theorem assembly_ne_of_none {i j : Instruction} {op : Operation} (hi : i.operation? = none)
    (hj : j.operation? = some op) : i.assembly ≠ j.assembly := by
  intro h
  have hlist := congrArg String.toList h
  rw [toList_assembly_of_none hi, toList_assembly_of_operation hj] at hlist
  obtain ⟨hword, -⟩ := Text.append_inj_of_breaks hlist (by decide) op.mnemonic_plain.1
    (Text.breaks_cons ' ' _) (Operand.breaks_line _)
  exact op.mnemonic_plain.2 hword.symm

theorem assembly_inj_of_none {i j : Instruction} (hi : i.operation? = none)
    (hj : j.operation? = none) (h : i.assembly = j.assembly) : i.raw = j.raw := by
  have hlist := congrArg String.toList h
  rw [toList_assembly_of_none hi, toList_assembly_of_none hj] at hlist
  have hliteral := (List.cons.inj (List.append_cancel_left hlist)).2
  exact UInt32.toNat_inj.mp (Text.hexLiteral_inj (String.toList_inj.mp hliteral))

theorem operation?_eq_of_agreeOnUsed {i j : Instruction} (h : i.AgreeOnUsed j) :
    i.operation? = j.operation? := by
  rw [operation?, operation?, h.1]

theorem operands_eq_of_agreeOnUsed {i j : Instruction} {op : Operation} (h : i.AgreeOnUsed j)
    (hop : i.operation? = some op) : op.operands i = op.operands j := by
  have hused := h.2
  rw [hop] at hused
  exact (op.operands_eq_iff i j).mpr hused

theorem raw_eq_of_agreeOnUsed {i j : Instruction} (h : i.AgreeOnUsed j)
    (hop : i.operation? = none) : i.raw = j.raw := by
  have hused := h.2
  rw [hop] at hused
  exact hused

-- Two words have one text where nothing that is used tells them apart, and nowhere else.
theorem assembly_decode_eq_iff (word other : UInt32) :
    (decode word).assembly = (decode other).assembly ↔
      (decode word).AgreeOnUsed (decode other) := by
  constructor
  · intro h
    cases hi : (decode word).operation? with
    | none =>
      cases hj : (decode other).operation? with
      | none =>
        have hraw : word = other := assembly_inj_of_none hi hj h
        rw [hraw]
        refine ⟨rfl, ?_⟩
        rw [hj]
      | some op => exact absurd h (assembly_ne_of_none hi hj)
    | some op =>
      cases hj : (decode other).operation? with
      | none => exact absurd h.symm (assembly_ne_of_none hj hi)
      | some op' =>
        obtain ⟨rfl, hoperands⟩ := assembly_inj_of_operation hi hj h
        refine ⟨?_, ?_⟩
        · rw [← UInt8.toNat_inj, toNat_opcode hi, toNat_opcode hj]
        · rw [hi]
          exact (op.operands_eq_iff _ _).mp hoperands
  · intro h
    have hop := operation?_eq_of_agreeOnUsed h
    cases hi : (decode word).operation? with
    | none =>
      have hraw : word = other := raw_eq_of_agreeOnUsed h hi
      rw [hraw]
    | some op =>
      rw [← String.toList_inj, toList_assembly_of_operation hi,
        toList_assembly_of_operation (hop ▸ hi), operands_eq_of_agreeOnUsed h hi]

end Instruction

end WordMachine
