import WordMachine.Machine.Action
import WordMachine.Proofs.Text.Blank
import WordMachine.Proofs.Text.Utf8

namespace WordMachine.Console

-- All that a line without its line feed has to deliver: its tokens, or the one complaint that it
-- could not be read.
def lineDeliveries (line : List UInt8) : List Delivery :=
  match lineTokens? line with
  | none => [.badLine]
  | some tokens => tokens.map .token

-- All that an input has to deliver, line by line. Behind a last line feed there is an empty line,
-- which has no token.
def deliveries (input : List UInt8) : List Delivery :=
  (input.splitOn 10).flatMap lineDeliveries

section Line

variable (line rest : List UInt8)

theorem lineTokens?_append :
    lineTokens? (line ++ 10 :: rest) =
      (lineTokens? line).bind fun tokens => (lineTokens? rest).map (tokens ++ ·) := by
  have hblank : Text.isBlank (Char.ofNat (10 : UInt8).toNat) = true := by decide
  rw [lineTokens?, lineTokens?, lineTokens?, Text.Utf8.decode?_append (by decide)]
  cases Text.Utf8.decode? line with
  | none => rfl
  | some text =>
    cases Text.Utf8.decode? rest with
    | none => rfl
    | some text' =>
      have htokens := Text.tokens_append hblank text text'
      simp only [Text.Utf8.joined, Option.bind_eq_bind, Option.bind_some, Option.pure_def,
        Option.map_some, htokens, List.map_append]

theorem lineDeliveries_lineFeed : lineDeliveries (line ++ [10]) = lineDeliveries line := by
  have hnil : lineTokens? [] = some [] := rfl
  rw [lineDeliveries, lineTokens?_append, hnil]
  cases hline : lineTokens? line with
  | none => simp [lineDeliveries, hline]
  | some tokens => simp [lineDeliveries, hline]

theorem deliveries_append :
    deliveries (line ++ 10 :: rest) = deliveries line ++ deliveries rest := by
  rw [deliveries, List.splitOn_append_cons_self, List.flatMap_append]
  rfl

variable {line}

theorem deliveries_of_notMem (h : 10 ∉ line) : deliveries line = lineDeliveries line := by
  rw [deliveries, List.splitOn_eq_singleton h, List.flatMap_singleton]

theorem firstLine_of_notMem (h : 10 ∉ line) : firstLine line = (line, []) := by
  induction line with
  | nil => rfl
  | cons byte line ih =>
    rw [List.mem_cons, not_or] at h
    rw [firstLine, if_neg (Ne.symm h.1), ih h.2]

theorem firstLine_append_lineFeed (h : 10 ∉ line) :
    firstLine (line ++ 10 :: rest) = (line ++ [10], rest) := by
  induction line with
  | nil => rfl
  | cons byte line ih =>
    rw [List.mem_cons, not_or] at h
    rw [List.cons_append, firstLine, if_neg (Ne.symm h.1), ih h.2]
    rfl

end Line

-- Bytes are some lines that end with a line feed, and one that does not.
theorem lines_induction {motive : List UInt8 → Prop} (hlast : ∀ line, 10 ∉ line → motive line)
    (hline : ∀ line rest, 10 ∉ line → motive rest → motive (line ++ 10 :: rest))
    (bytes : List UInt8) : motive bytes := by
  by_cases hmem : 10 ∈ bytes
  · obtain ⟨line, rest, hcut, hnot⟩ := List.eq_append_cons_of_mem hmem
    have hshorter : rest.length < bytes.length := by
      rw [hcut, List.length_append, List.length_cons]
      omega
    rw [hcut]
    exact hline line rest hnot (lines_induction hlast hline rest)
  · exact hlast bytes hmem
termination_by bytes.length

-- What is read first, a line with its line feed, delivers first.
theorem deliveries_eq_firstLine (bytes : List UInt8) :
    deliveries bytes = lineDeliveries (firstLine bytes).1 ++ deliveries (firstLine bytes).2 := by
  induction bytes using lines_induction with
  | hlast line hnot =>
    rw [firstLine_of_notMem hnot, deliveries_of_notMem hnot]
    exact (List.append_nil _).symm
  | hline line rest hnot _ =>
    rw [firstLine_append_lineFeed rest hnot, deliveries_append, deliveries_of_notMem hnot,
      lineDeliveries_lineFeed]

-- Where all of the input can be read, its lines make no difference.
theorem deliveries_of_lineTokens? {input : List UInt8} {tokens : List String}
    (h : lineTokens? input = some tokens) : deliveries input = tokens.map .token := by
  induction input using lines_induction generalizing tokens with
  | hlast line hnot => rw [deliveries_of_notMem hnot, lineDeliveries, h]
  | hline line rest hnot ih =>
    rw [lineTokens?_append, Option.bind_eq_some_iff] at h
    obtain ⟨first, hfirst, h⟩ := h
    obtain ⟨second, hsecond, rfl⟩ := Option.map_eq_some_iff.mp h
    rw [deliveries_append, deliveries_of_notMem hnot, lineDeliveries, hfirst, ih hsecond,
      List.map_append]

theorem deliveries_of_decode? {input : List UInt8} {text : List Char}
    (h : Text.Utf8.decode? input = some text) :
    deliveries input = (Text.tokens text).map fun token => .token (String.ofList token) := by
  have htokens : lineTokens? input = some ((Text.tokens text).map String.ofList) := by
    rw [lineTokens?, h]
    rfl
  rw [deliveries_of_lineTokens? htokens, List.map_map]
  rfl

theorem firstToken_eq (unread : List UInt8) :
    (firstToken unread).1 = (deliveries unread).headD .endOfInput ∧
      (firstToken unread).2.1.map .token ++ deliveries (firstToken unread).2.2 =
        (deliveries unread).tail := by
  induction unread using firstToken.induct with
  | case1 =>
    rw [firstToken]
    exact ⟨rfl, rfl⟩
  | case2 byte bytes parts hline =>
    have hfirst := deliveries_eq_firstLine (byte :: bytes)
    rw [lineDeliveries, hline] at hfirst
    rw [firstToken, hline, hfirst]
    exact ⟨rfl, rfl⟩
  | case3 byte bytes parts hline ih =>
    have hfirst := deliveries_eq_firstLine (byte :: bytes)
    rw [lineDeliveries, hline] at hfirst
    rw [firstToken, hline, hfirst]
    exact ih
  | case4 byte bytes parts token pending hline =>
    have hfirst := deliveries_eq_firstLine (byte :: bytes)
    rw [lineDeliveries, hline] at hfirst
    rw [firstToken, hline, hfirst]
    exact ⟨rfl, rfl⟩

-- All that a console has still to deliver.
def remaining (console : Console) : List Delivery :=
  console.pending.map .token ++ deliveries console.unread

theorem nextToken_eq (console : Console) :
    console.nextToken.1 = console.remaining.headD .endOfInput ∧
      console.nextToken.2.remaining = console.remaining.tail := by
  obtain ⟨pending, unread, sink⟩ := console
  cases pending with
  | nil => exact firstToken_eq unread
  | cons token pending => exact ⟨rfl, rfl⟩

theorem sink_nextToken (console : Console) : console.nextToken.2.sink = console.sink := by
  unfold nextToken
  cases console.pending with
  | nil => rfl
  | cons token pending => rfl

-- The integer that a delivery is taken for.
def Delivery.integer : Delivery → Except InputFault Int32
  | .badLine => .error .notUtf8
  | .endOfInput => .error .endOfInput
  | .token text =>
    match Decimal.readSigned 0x80000000 text.toList with
    | .ok value => .ok (Int32.ofInt value)
    | .error cause => .error (.notInteger text cause)

-- An integer is read from exactly one token, whatever the token is.
theorem readInteger_eq (console : Console) :
    console.readInteger = (console.nextToken.1.integer, console.nextToken.2) := by
  unfold readInteger
  rcases hn : console.nextToken with ⟨delivery, rest⟩
  cases delivery with
  | badLine | endOfInput => rfl
  | token text =>
    simp only [Delivery.integer]
    cases Decimal.readSigned 0x80000000 text.toList <;> rfl

theorem remaining_writeLine (console : Console) (line : String) :
    (console.writeLine line).2.remaining = console.remaining := rfl

-- What a console is asked for: its next token, or to write a line.
inductive Request where
  | token
  | line (text : String)
  deriving DecidableEq, Repr

-- What the requests for tokens get, among the others.
def serve (console : Console) : List Request → List Delivery
  | [] => []
  | .token :: requests => console.nextToken.1 :: serve console.nextToken.2 requests
  | .line text :: requests => serve (console.writeLine text).2 requests

-- They get all that is there, in order, and then the end of the input for ever.
theorem serve_eq (console : Console) (requests : List Request) :
    serve console requests =
      (List.range (requests.count .token)).map fun place =>
        console.remaining[place]?.getD .endOfInput := by
  induction requests generalizing console with
  | nil => rfl
  | cons request requests ih =>
    cases request with
    | line text =>
      have hother : Request.line text ≠ .token := nofun
      rw [serve, ih, remaining_writeLine, List.count_cons_of_ne hother]
    | token =>
      obtain ⟨hfirst, hrest⟩ := console.nextToken_eq
      rw [serve, ih, hfirst, hrest, List.count_cons_self, List.range_succ_eq_map, List.map_cons,
        List.map_map, ← List.head?_eq_getElem?, List.headD_eq_head?_getD]
      refine congrArg _ (List.map_congr_left fun place _ => ?_)
      rw [List.getElem?_tail]
      rfl

end WordMachine.Console
