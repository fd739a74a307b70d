import WordMachine.Proofs.CommandLine.Session
import WordMachine.Proofs.Console.Numeral
import WordMachine.Proofs.Instruction.Assembly
import WordMachine.Proofs.Program.Image

namespace WordMachine

namespace Text

-- The lines of a text in which each line ends with a line feed.
def lines (text : List Char) : List (List Char) :=
  (text.splitOn '\n').dropLast

theorem lines_unlines {shown : List String} (h : ∀ line ∈ shown, '\n' ∉ line.toList) :
    lines (CommandLine.unlines shown).toList = shown.map String.toList := by
  have hpieces : (CommandLine.unlines shown).toList.splitOn '\n' =
      shown.map String.toList ++ [[]] := by
    induction shown with
    | nil => rfl
    | cons line shown ih =>
      have hline := h line (List.mem_cons_self ..)
      have hjoin : (CommandLine.unlines (line :: shown)).toList =
          line.toList ++ '\n' :: (CommandLine.unlines shown).toList := by
        simp [CommandLine.unlines, String.toList_join]
      rw [hjoin, List.splitOn_append_cons_self, List.splitOn_eq_singleton hline,
        ih fun other ho => h other (List.mem_cons_of_mem line ho)]
      rfl
  rw [lines, hpieces, List.dropLast_concat]

end Text

namespace Program

open Instruction (decode)

-- What stands between the columns of a line: a colon after a heading, and a comma after a value.
def separates (c : Char) : Bool :=
  c = ':' || c = ','

-- The columns of a line: the address, then headings and values in turn. The assembly stands behind
-- the last value, and may have commas of its own.
def columns (line : List Char) : List (List Char) :=
  line.splitOnP separates

-- The number that a column begins with.
def number? (column : List Char) : Option Int := do
  let word ← (Text.tokens column).head?
  (Decimal.readSigned 0x80000000 word).toOption

-- The fields that a line shows: the values behind the four headings.
def fieldsOf? (line : List Char) : Option Fields := do
  let opcode ← (columns line)[2]?.bind number?
  let first ← (columns line)[4]?.bind number?
  let second ← (columns line)[6]?.bind number?
  let immediate ← (columns line)[8]?.bind number?
  return ⟨.ofNat opcode.toNat, .ofNat first.toNat, .ofNat second.toNat, .ofInt immediate⟩

-- A value in its column.
def cell (width : Nat) (value : Int) : List Char :=
  ' ' :: (Decimal.render value).toList.leftpad width ' '

-- A line up to its assembly.
def lead (index : Nat) (fields : Fields) : List Char :=
  (Text.hexLiteral 4 (index * 4)).toList ++ ':' :: (" op".toList ++ ':' ::
    (cell 2 fields.opcode.toNat ++ ',' :: (" reg1".toList ++ ':' ::
      (cell 2 fields.first.toNat ++ ',' :: (" reg2".toList ++ ':' ::
        (cell 2 fields.second.toNat ++ ',' :: (" imm".toList ++ ':' ::
          (cell 6 fields.immediate.toInt ++ "    ".toList))))))))

theorem toInt_immediate_decode (word : UInt32) :
    (decode word).immediate.toInt = (decode word).fields.immediate.toInt := by
  have hfield : (decode word).fields.immediate = word.toUInt16.toInt16 := Int16.toInt16_toInt32 _
  rw [hfield]
  exact Int16.toInt_toInt32 _

theorem toList_listingLine (index : Nat) (word : UInt32) :
    (listingLine index (decode word)).toList =
      lead index (decode word).fields ++ (decode word).assembly.toList := by
  have hnatural (n : Nat) : Decimal.render n = Decimal.renderNat n := rfl
  rw [listingLine, toInt_immediate_decode]
  simp [Text.padLeft, lead, cell, Instruction.fields, hnatural]

section Columns

theorem columns_append_cons {before : List Char} {c : Char}
    (h : ∀ d ∈ before, separates d = false) (hc : separates c = true) (after : List Char) :
    columns (before ++ c :: after) = before :: columns after := by
  rw [columns, List.splitOnP_append_cons before after hc, List.splitOnP_eq_singleton h]
  rfl

-- A text without separators is the beginning of its column.
theorem columns_append {before : List Char} (h : ∀ d ∈ before, separates d = false)
    (after : List Char) :
    ∃ column rest, columns (before ++ after) = (before ++ column) :: rest := by
  induction before with
  | nil =>
    cases hcolumns : columns after with
    | nil => exact absurd hcolumns (List.splitOnP_ne_nil _ _)
    | cons column rest => exact ⟨column, rest, hcolumns⟩
  | cons d before ih =>
    have hd : ¬ separates d = true := by simp [h d]
    obtain ⟨column, rest, hcolumns⟩ := ih fun e he => h e (List.mem_cons_of_mem d he)
    refine ⟨column, rest, ?_⟩
    rw [columns] at hcolumns
    rw [columns, List.cons_append, List.splitOnP_cons_eq_if_modifyHead, if_neg hd, hcolumns]
    rfl

theorem mem_cell {width : Nat} {value : Int} {c : Char} (h : c ∈ cell width value) :
    c.isDigit = true ∨ c = '-' ∨ c = ' ' := by
  simp only [cell, List.leftpad, List.mem_cons, List.mem_append, List.mem_replicate] at h
  rcases h with rfl | ⟨-, rfl⟩ | h
  · simp
  · simp
  · rcases Decimal.mem_render h with hdigit | rfl <;> simp_all

theorem separates_of_isAlphanum {c : Char} (h : c.isAlphanum = true) : separates c = false := by
  have hcolon : c ≠ ':' := by rintro rfl; cases h
  have hcomma : c ≠ ',' := by rintro rfl; cases h
  simp [separates, hcolon, hcomma]

theorem separates_of_mem_cell {width : Nat} {value : Int} {c : Char} (h : c ∈ cell width value) :
    separates c = false := by
  rcases mem_cell h with hdigit | rfl | rfl
  · exact separates_of_isAlphanum (by rw [Char.isAlphanum, hdigit, Bool.or_true])
  · rfl
  · rfl

theorem tokens_cell (width : Nat) (value : Int) :
    Text.tokens (cell width value) = [(Decimal.render value).toList] := by
  have hblank := Text.tokens_append Text.isBlank_space []
    ((Decimal.render value).toList.leftpad width ' ')
  rw [Text.tokens_leftpad, Console.tokens_render] at hblank
  exact hblank

variable {value : Int} (hlow : -0x80000000 ≤ value) (hhigh : value < 0x80000000)

include hlow hhigh

theorem number?_cell (width : Nat) : number? (cell width value) = some value := by
  have hread : Decimal.readSigned 0x80000000 (Decimal.render value).toList = .ok value :=
    Decimal.readSigned_render hlow hhigh
  simp [number?, tokens_cell, hread, Except.toOption]

theorem number?_cell_append (width : Nat) (text : List Char) :
    number? (cell width value ++ ' ' :: text) = some value := by
  have hread : Decimal.readSigned 0x80000000 (Decimal.render value).toList = .ok value :=
    Decimal.readSigned_render hlow hhigh
  simp [number?, Text.tokens_append Text.isBlank_space, tokens_cell, hread,
    Except.toOption]

end Columns

-- The values are read back, whatever stands behind them.
theorem fieldsOf?_lead (index : Nat) (fields : Fields) (text : List Char) :
    fieldsOf? (lead index fields ++ text) = some fields := by
  have hcell (width : Nat) (value : Int) : ∀ c ∈ cell width value, separates c = false :=
    fun c => separates_of_mem_cell
  have hbyte (byte : UInt8) : number? (cell 2 byte.toNat) = some (byte.toNat : Int) := by
    have hlt := byte.toNat_lt
    exact number?_cell (by omega) (by omega) 2
  have hlast : ∀ c ∈ cell 6 fields.immediate.toInt ++ [' '], separates c = false := by
    intro c hc
    rcases List.mem_append.mp hc with hc | hc
    · exact hcell _ _ c hc
    · rw [List.mem_singleton.mp hc]
      rfl
  -- the last value shares its column with the beginning of what follows
  obtain ⟨column, rest, hcolumns⟩ : ∃ column rest,
      columns (cell 6 fields.immediate.toInt ++ ("    ".toList ++ text)) =
        (cell 6 fields.immediate.toInt ++ ' ' :: column) :: rest := by
    simpa using columns_append hlast ("   ".toList ++ text)
  have hline : columns (lead index fields ++ text) =
      (Text.hexLiteral 4 (index * 4)).toList :: " op".toList :: cell 2 fields.opcode.toNat ::
        " reg1".toList :: cell 2 fields.first.toNat :: " reg2".toList ::
          cell 2 fields.second.toNat :: " imm".toList ::
            (cell 6 fields.immediate.toInt ++ ' ' :: column) :: rest := by
    have haddress : ∀ c ∈ (Text.hexLiteral 4 (index * 4)).toList, separates c = false :=
      fun c hc => separates_of_isAlphanum (Text.isAlphanum_of_mem_hexLiteral hc)
    have hheading : ∀ heading ∈ [" op", " reg1", " reg2", " imm"],
        ∀ c ∈ heading.toList, separates c = false := by
      simp [separates]
    rw [← hcolumns]
    simp only [lead, List.append_assoc, List.cons_append]
    rw [columns_append_cons haddress rfl, columns_append_cons (hheading " op" (by simp)) rfl,
      columns_append_cons (hcell _ _) rfl, columns_append_cons (hheading " reg1" (by simp)) rfl,
      columns_append_cons (hcell _ _) rfl, columns_append_cons (hheading " reg2" (by simp)) rfl,
      columns_append_cons (hcell _ _) rfl, columns_append_cons (hheading " imm" (by simp)) rfl]
  have himmediate : number? (cell 6 fields.immediate.toInt ++ ' ' :: column) =
      some fields.immediate.toInt := by
    have hlow := fields.immediate.le_toInt
    have hhigh := fields.immediate.toInt_lt
    exact number?_cell_append (by omega) (by omega) 6 column
  simp [fieldsOf?, hline, hbyte, himmediate]

section Line

theorem lineFeed_notMem_operands (operands : List Operand) :
    '\n' ∉ (Operand.line operands).toList := by
  induction operands with
  | nil => simp [Operand.line]
  | cons operand operands ih =>
    have hoperand := operand.notMem_text (c := '\n') rfl (by decide)
    have htail : '\n' ∉ Operand.tail operands := by
      cases operands with
      | nil => simp [Operand.tail]
      | cons next operands => exact List.not_mem_cons_of_ne_of_not_mem (by decide) ih
    simp [Operand.toList_line_cons, hoperand, htail]

theorem lineFeed_notMem_hexLiteral (digits n : Nat) : '\n' ∉ (Text.hexLiteral digits n).toList :=
  fun h => absurd (Text.isAlphanum_of_mem_hexLiteral h) (by decide)

theorem lineFeed_notMem_assembly (i : Instruction) : '\n' ∉ i.assembly.toList := by
  cases hop : i.operation? with
  | none =>
    have hliteral := lineFeed_notMem_hexLiteral 8 i.raw.toNat
    simp [Instruction.toList_assembly_of_none hop, hliteral]
  | some op =>
    have hmnemonic : '\n' ∉ op.mnemonic.toList := by
      cases op with
      | branch condition => cases condition <;> decide
      | _ => decide
    simp [Instruction.toList_assembly_of_operation hop, hmnemonic, lineFeed_notMem_operands]

theorem lineFeed_notMem_listingLine (index : Nat) (word : UInt32) :
    '\n' ∉ (listingLine index (decode word)).toList := by
  have hcell (width : Nat) (value : Int) : '\n' ∉ cell width value := by
    intro h
    rcases mem_cell h with h | h | h <;> cases h
  simp [toList_listingLine, lead, hcell, lineFeed_notMem_hexLiteral, lineFeed_notMem_assembly]

end Line

-- Two words that are written in the same way at the same place.
def Alike (word other : UInt32) : Prop :=
  (∀ bit, bit ≠ 16 → word.toNat.testBit bit = other.toNat.testBit bit) ∧
    ((decode word).operation? = none → word = other)

theorem alike_iff (word other : UInt32) :
    Alike word other ↔
      (decode word).fields = (decode other).fields ∧
        (decode word).assembly = (decode other).assembly := by
  rw [Alike, ← Instruction.agree_decode_iff, Instruction.fields_decode_eq_iff,
    Instruction.assembly_decode_eq_iff]
  constructor
  · rintro ⟨hagree, hraw⟩
    refine ⟨hagree, hagree.1, ?_⟩
    cases hop : (decode word).operation? with
    | none => exact hraw hop
    | some op => exact ⟨fun _ => hagree.2.1, fun _ => hagree.2.2.1, fun _ => hagree.2.2.2⟩
  · rintro ⟨hagree, hused⟩
    exact ⟨hagree, Instruction.raw_eq_of_agreeOnUsed hused⟩

theorem listingLine_inj {index : Nat} {word other : UInt32} :
    listingLine index (decode word) = listingLine index (decode other) ↔ Alike word other := by
  rw [alike_iff]
  constructor
  · intro h
    have hline := congrArg String.toList h
    rw [toList_listingLine, toList_listingLine] at hline
    have hfields := congrArg fieldsOf? hline
    rw [fieldsOf?_lead, fieldsOf?_lead, Option.some.injEq] at hfields
    rw [hfields] at hline
    exact ⟨hfields, String.toList_inj.mp (List.append_cancel_left hline)⟩
  · rintro ⟨hfields, hassembly⟩
    rw [← String.toList_inj, toList_listingLine, toList_listingLine, hfields, hassembly]

section Printed

-- What is printed of the words of an image.
def printed (words : List UInt32) : List Char :=
  (CommandLine.unlines (listing (words.map decode))).toList

-- The lines between the heading and the closing rule.
def body (text : List Char) : List (List Char) :=
  (Text.lines text).tail.dropLast

theorem listing_map_decode (words : List UInt32) :
    listing (words.map decode) =
      "instructions:" :: words.mapIdx (fun index word => listingLine index (decode word)) ++
        ["--------------"] := by
  have hlines : (words.map decode).mapIdx listingLine =
      words.mapIdx fun index word => listingLine index (decode word) := by
    apply List.ext_getElem?
    intro index
    cases hword : words[index]? <;> simp [hword]
  rw [listing, hlines]

theorem lines_printed (words : List UInt32) :
    Text.lines (printed words) = (listing (words.map decode)).map String.toList := by
  apply Text.lines_unlines
  intro line hline
  simp only [listing_map_decode, List.cons_append, List.mem_cons, List.mem_append, List.mem_mapIdx,
    List.not_mem_nil, or_false] at hline
  rcases hline with rfl | ⟨index, hindex, rfl⟩ | rfl
  · decide
  · exact lineFeed_notMem_listingLine index _
  · decide

theorem length_lines_printed (words : List UInt32) :
    (Text.lines (printed words)).length = words.length + 2 := by
  simp [lines_printed, listing_map_decode]

theorem getElem?_body_printed (words : List UInt32) (index : Nat) :
    (body (printed words))[index]? =
      words[index]?.map fun word => (listingLine index (decode word)).toList := by
  have hbody : body (printed words) =
      (words.mapIdx fun index word => listingLine index (decode word)).map String.toList := by
    rw [body, lines_printed, listing_map_decode, List.map_append, List.map_cons]
    exact List.dropLast_concat
  cases hword : words[index]? <;> simp [hbody, hword]

theorem printed_eq_iff (words others : List UInt32) :
    printed words = printed others ↔
      words.length = others.length ∧ ∀ (index : Nat) (word other : UInt32),
        words[index]? = some word → others[index]? = some other → Alike word other := by
  constructor
  · intro h
    have hlength := congrArg (fun text => (Text.lines text).length) h
    simp only [length_lines_printed, Nat.add_right_cancel_iff] at hlength
    refine ⟨hlength, ?_⟩
    intro index word other hword hother
    have hline := congrArg (fun text => (body text)[index]?) h
    simp only [getElem?_body_printed, hword, hother, Option.map_some, Option.some.injEq,
      String.toList_inj] at hline
    exact listingLine_inj.mp hline
  · rintro ⟨hlength, halike⟩
    have hlines : words.mapIdx (fun index word => listingLine index (decode word)) =
        others.mapIdx fun index word => listingLine index (decode word) := by
      apply List.ext_getElem
      · simp [hlength]
      · intro index hindex hindex'
        rw [List.getElem_mapIdx, List.getElem_mapIdx, listingLine_inj]
        apply halike index <;> simp
    rw [printed, printed, listing_map_decode, listing_map_decode, hlines]

end Printed

-- What can be read off the line of a word.
structure Shows (index : Nat) (word : UInt32) (line : List Char) : Prop where
  address : ∃ rest,
    line = '0' :: 'x' :: ((Nat.toDigits 16 (4 * index)).leftpad 4 '0' ++ ':' :: rest)
  fields : fieldsOf? line = some (decode word).fields
  word : (fieldsOf? line).map Fields.word = some (word &&& 0xFFFEFFFF)

theorem shows_listingLine (index : Nat) (word : UInt32) :
    Shows index word (listingLine index (decode word)).toList := by
  have hfields : fieldsOf? (listingLine index (decode word)).toList =
      some (decode word).fields := by
    rw [toList_listingLine, fieldsOf?_lead]
  refine ⟨?_, hfields, ?_⟩
  · rw [toList_listingLine, lead, Text.toList_hexLiteral, Nat.mul_comm index 4]
    simp only [List.cons_append, List.append_assoc]
    exact ⟨_, rfl⟩
  · rw [hfields, Option.map_some, Instruction.word_fields]

-- Two images are printed alike where their words differ in the unused bit at most, and nowhere
-- else. A word that is shown as data shows that bit as well.
theorem listing_is_lossless :
    (∀ (arguments : List String) (invocation : CommandLine.Invocation) (wish : Option String)
      (reader : CommandLine.Reader) (input : List UInt8) (configuration : Configuration)
      (image : List UInt8) (read : List UInt32) (fuel : Nat),
      CommandLine.Request.ofArguments arguments = .ok (.run invocation) →
      CommandLine.loadConfiguration reader invocation.configFile = .ok configuration →
      reader invocation.file = .ok image → words configuration.byteOrder image = .ok read →
      invocation.disassemble = true →
      ∃ output, CommandLine.session? arguments wish reader input fuel = some output ∧
        output.exitCode = 0 ∧ output.stdout.toList = printed read) ∧
    (∀ (order : ByteOrder) (image : List UInt8), 4 ∣ image.length →
      ∃ read, words order image = .ok read ∧ 4 * read.length = image.length ∧
        (Text.lines (printed read)).length = read.length + 2 ∧
        (body (printed read)).length = read.length ∧
        ∀ index word, read[index]? = some word →
          ∃ line, (body (printed read))[index]? = some line ∧ Shows index word line) ∧
    (∀ (order order' : ByteOrder) (image image' : List UInt8) (read read' : List UInt32),
      words order image = .ok read → words order' image' = .ok read' →
      (printed read = printed read' ↔
        read.length = read'.length ∧ ∀ (index : Nat) (word word' : UInt32),
          read[index]? = some word → read'[index]? = some word' →
            (∀ bit, bit ≠ 16 → word.toNat.testBit bit = word'.toNat.testBit bit) ∧
              ((decode word).operation? = none → word = word'))) := by
  refine ⟨?_, ?_, ?_⟩
  · intro arguments invocation wish reader input configuration image read fuel hrun hconfiguration
      hfile hread hdisassemble
    have hload : CommandLine.loadProgram reader invocation.file configuration.byteOrder =
        .ok (read, .loaded invocation.file image.length read.length) := by
      simp only [CommandLine.loadProgram, hfile, hread]
    have hprepare := CommandLine.prepare_of_disassemble hrun wish input hconfiguration hload
      hdisassemble
    exact ⟨_, CommandLine.session?_of_finished hprepare fuel, rfl, rfl⟩
  · intro order image hwhole
    obtain ⟨read, hread⟩ : ∃ read, words order image = .ok read := exists_words hwhole
    refine ⟨read, hread, length_words hread, length_lines_printed read, ?_, ?_⟩
    · simp [body, length_lines_printed]
    · intro index word hword
      refine ⟨_, ?_, shows_listingLine index word⟩
      rw [getElem?_body_printed, hword, Option.map_some]
  · intro order order' image image' read read' _ _
    exact printed_eq_iff read read'

-- A move and a word of data in the two orders of bytes, with and without the unused bit of the
-- move.
theorem move_and_data_are_listed :
    let reader : CommandLine.Reader := fun _ => .ok [0xFB, 0xFF, 0x41, 0x40, 0xFF, 0, 1, 0xF8]
    ∃ read, words .little [0xFB, 0xFF, 0x41, 0x40, 0xFF, 0, 1, 0xF8] = .ok read ∧
      (body (printed read)).length = 2 ∧
      (∃ line, (body (printed read))[0]? = some line ∧ Shows 0 0x4041FFFB line) ∧
      (∃ read', words .big [0x40, 0x40, 0xFF, 0xFB, 0xF8, 1, 0, 0xFF] = .ok read' ∧
        printed read = printed read') ∧
      ∃ output, CommandLine.session? ["--disassemble", "program.bin"] none reader [] 0 =
        some output ∧ output.exitCode = 0 ∧ output.stdout.toList = printed read := by
  intro reader
  obtain ⟨hsession, hlisted, hsame⟩ := listing_is_lossless
  have hlittle : words .little [0xFB, 0xFF, 0x41, 0x40, 0xFF, 0, 1, 0xF8] =
      .ok [0x4041FFFB, 0xF80100FF] := rfl
  have hbig : words .big [0x40, 0x40, 0xFF, 0xFB, 0xF8, 1, 0, 0xFF] =
      .ok [0x4040FFFB, 0xF80100FF] := rfl
  obtain ⟨read, hread, -, -, hbody, hshown⟩ :=
    hlisted .little [0xFB, 0xFF, 0x41, 0x40, 0xFF, 0, 1, 0xF8] (by decide)
  obtain rfl := Except.ok.inj (hlittle.symm.trans hread)
  refine ⟨_, hlittle, hbody, hshown 0 0x4041FFFB rfl, ⟨_, hbig, ?_⟩, ?_⟩
  · refine (hsame .little .big _ _ _ _ hlittle hbig).mpr ⟨rfl, ?_⟩
    have hmove : Alike 0x4041FFFB 0x4040FFFB :=
      ⟨(Instruction.agree_decode_iff _ _).mp ⟨rfl, rfl, rfl, rfl⟩, nofun⟩
    intro index word word' hword hword'
    match index with
    | 0 =>
      cases hword
      cases hword'
      exact hmove
    | 1 =>
      cases hword
      cases hword'
      exact ⟨fun _ _ => rfl, fun _ => rfl⟩
    | index + 2 => cases hword
  · exact hsession _ ⟨"program.bin", none, none, false, false, true, false, false⟩ none reader []
      .default _ _ 0 rfl rfl rfl hlittle rfl

end Program

end WordMachine
