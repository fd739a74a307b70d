import WordMachine.Text.Blank

namespace WordMachine.Text

theorem splitAtBlanks_eq_splitOnP (text : List Char) :
    splitAtBlanks text = text.splitOnP isBlank := by
  induction text with
  | nil => rfl
  | cons c text ih =>
    rw [List.splitOnP_cons_eq_if_modifyHead, ← ih, splitAtBlanks]
    by_cases hc : isBlank c
    · rw [if_pos hc, if_pos hc]
    · rw [if_neg hc, if_neg hc]
      cases hpieces : splitAtBlanks text with
      | nil => exact absurd hpieces (splitAtBlanks_ne_nil text)
      | cons piece pieces => rfl

-- No token reaches over a blank.
theorem tokens_append {blank : Char} (h : isBlank blank) (before after : List Char) :
    tokens (before ++ blank :: after) = tokens before ++ tokens after := by
  simp only [tokens, splitAtBlanks_eq_splitOnP, List.splitOnP_append_cons before after h,
    List.filter_append]

theorem isBlank_space : isBlank ' ' = true := by
  decide

theorem tokens_leftpad (width : Nat) (text : List Char) :
    tokens (text.leftpad width ' ') = tokens text := by
  rw [List.leftpad]
  induction width - text.length with
  | zero => simp
  | succ count ih =>
    have hblank := tokens_append isBlank_space [] (List.replicate count ' ' ++ text)
    rw [ih] at hblank
    exact hblank

end WordMachine.Text
