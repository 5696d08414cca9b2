import CloudTerminal.Text.Table

/-!
What a command answers.
-/

namespace CloudTerminal

/-- `CommandOutput`: the answer of a command that was carried out. -/
inductive Reply where
  | text (shown : String)
  | table (headers : List String) (rows : List (List String))
  /-- There is nothing to show. -/
  | silent
  /-- The screen and the log are to be cleared. -/
  | clear
  deriving DecidableEq

/-- `CommandOutput::into_text`: the text of an answer. -/
def Reply.rendered : Reply → String
  | text shown => shown
  | table headers rows => Text.renderTable headers rows
  | silent => ""
  | clear => ""

end CloudTerminal
