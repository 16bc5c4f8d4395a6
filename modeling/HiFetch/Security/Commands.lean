import HiFetch.Library.CString
import HiFetch.Library.Words

/-!
# Checking commands

`validate_command` searches a command for fixed texts, among them two names of programs with a blank
behind them.  The shell takes such a name for a word of its own also where a tab, a newline, one of
`;`, `|` and `&` or the end of the command follows, and there the search finds nothing.
-/

namespace HiFetch.Security

open CString Words

def maxCmdLen : ℕ := 2048

/-- The programs that `validate_command` searches for. -/
def blockedPrograms : List CString :=
  [ofText "rm ", ofText "dd ", ofText "mkfs", ofText "format", ofText "fdisk", ofText "wget http",
    ofText "curl http", ofText "nc -l", ofText "netcat -l"]

/-- The places that `validate_command` searches for. -/
def blockedPlaces : List CString :=
  [ofText "../", ofText "~", ofText "/tmp", ofText "/var/tmp", ofText "$USER", ofText "$HOME"]

/-- What the checks of a text have in common: its length, and two groups of texts that it must not
contain. -/
def checkText (limit : ℕ) (first second : List CString) (text : CString) : ℤ :=
  if text.length = 0 ∨ limit < text.length then 0
  else if first.any (occurs text) then 0
  else if second.any (occurs text) then 0
  else 1

/-- `validate_command`, with nothing for a null pointer. -/
def validateCommand : Option CString → ℤ
  | none => 0
  | some cmd => checkText maxCmdLen blockedPrograms blockedPlaces cmd

/-- A blank, a tab, a newline, `;`, `|` or `&`. -/
def isSeparator (byte : UInt8) : Bool :=
  byte == 32 || byte == 9 || byte == 10 || byte == 59 || byte == 124 || byte == 38

/-- The words of a command. -/
def shellWords (cmd : CString) : List (List UInt8) := cmd.bytes.splitOnP isSeparator

def removers : List CString := [ofText "rm", ofText "dd"]

/-- If the command is accepted, none of its words is `rm` or `dd`. -/
def NotBypassed (cmd : CString) : Prop :=
  validateCommand (some cmd) = 1 → ∀ remover ∈ removers, remover.bytes ∉ shellWords cmd

/-- One of the fixed texts is in the command. -/
def ContainsBlocked (cmd : CString) : Prop :=
  ∃ text ∈ blockedPrograms ++ blockedPlaces, text.bytes <:+: cmd.bytes

/-- A word `rm` or `dd` is followed by the end of the command or by another separator than a
blank. -/
def RemoverWithoutBlank (cmd : CString) : Prop :=
  ∃ remover ∈ removers, ∃ before after, cmd.bytes = before ++ remover.bytes ++ after ∧
    (∀ last ∈ before.getLast?, isSeparator last) ∧
    ∀ next ∈ after.head?, isSeparator next ∧ next ≠ 32

/-! ## What is accepted -/

theorem checkText_eq_one_iff (limit : ℕ) (first second : List CString) (text : CString) :
    checkText limit first second text = 1 ↔
      text ≠ empty ∧ text.length ≤ limit ∧
        ¬∃ blocked ∈ first ++ second, blocked.bytes <:+: text.bytes := by
  have hblocked : (∃ blocked ∈ first ++ second, blocked.bytes <:+: text.bytes) ↔
      first.any (occurs text) = true ∨ second.any (occurs text) = true := by
    simp only [List.any_eq_true, occurs_iff_isInfix, List.mem_append, or_and_right, exists_or]
  unfold checkText
  rw [hblocked, ne_eq, ← length_eq_zero_iff, not_or]
  split_ifs with hlength hfirst hsecond
  · exact iff_of_false (by decide) fun h ↦ by omega
  · exact iff_of_false (by decide) fun h ↦ h.2.2.1 hfirst
  · exact iff_of_false (by decide) fun h ↦ h.2.2.2 hsecond
  · exact iff_of_true rfl ⟨by omega, by omega, hfirst, hsecond⟩

theorem validateCommand_eq_one_iff (cmd : CString) :
    validateCommand (some cmd) = 1 ↔
      cmd ≠ empty ∧ cmd.length ≤ maxCmdLen ∧ ¬ContainsBlocked cmd :=
  checkText_eq_one_iff maxCmdLen blockedPrograms blockedPlaces cmd

/-- The names with a blank behind them are blocked, and none of them contains a separator. -/
theorem removers_spec : ∀ remover ∈ removers,
    (∃ text ∈ blockedPrograms ++ blockedPlaces, text.bytes = remover.bytes ++ [32]) ∧
      remover ≠ empty ∧ ∀ byte ∈ remover.bytes, isSeparator byte = false := by
  decide +kernel

/-- A word `rm` or `dd` of an accepted command has no blank behind it. -/
theorem removerWithoutBlank_of_mem {cmd remover : CString} (hremover : remover ∈ removers)
    (haccepted : ¬ContainsBlocked cmd) (hword : remover.bytes ∈ shellWords cmd) :
    RemoverWithoutBlank cmd := by
  obtain ⟨before, after, hcmd, henclosed⟩ := mem_splitOnP_iff.1 hword
  refine ⟨remover, hremover, before, after, hcmd, henclosed.start, fun next hnext ↦ ?_⟩
  refine ⟨henclosed.finish next hnext, ?_⟩
  rintro rfl
  obtain ⟨text, htext, hbytes⟩ := (removers_spec remover hremover).1
  obtain ⟨rest, rfl⟩ : ∃ rest, after = 32 :: rest := by
    cases after with
    | nil => simp at hnext
    | cons byte rest =>
      obtain rfl : byte = 32 := by simpa using hnext
      exact ⟨rest, rfl⟩
  refine haccepted ⟨text, htext, before, rest, ?_⟩
  rw [hbytes, hcmd]
  simp

/-- The check keeps `rm` and `dd` out of the words of a command exactly when another text is blocked
or every such word has a blank behind it. -/
theorem notBypassed_iff {cmd : CString} (hlength : cmd.length ≤ maxCmdLen) :
    NotBypassed cmd ↔ ContainsBlocked cmd ∨ ¬RemoverWithoutBlank cmd := by
  unfold NotBypassed
  rw [validateCommand_eq_one_iff]
  constructor
  · intro hsound
    by_contra hnot
    rw [not_or, not_not] at hnot
    obtain ⟨haccepted, remover, hremover, before, after, hcmd, hstart, hfinish⟩ := hnot
    obtain ⟨-, hne, hnone⟩ := removers_spec remover hremover
    have hempty : cmd ≠ empty := by
      rintro rfl
      have hnil := (List.append_eq_nil_iff.1 (List.append_eq_nil_iff.1 hcmd.symm).1).2
      exact hne (CString.ext hnil)
    have henclosed : Enclosed isSeparator before remover.bytes after :=
      ⟨hstart, hnone, fun next hnext ↦ (hfinish next hnext).1⟩
    exact hsound ⟨hempty, hlength, haccepted⟩ remover hremover
      (mem_splitOnP_iff.2 ⟨before, after, hcmd, henclosed⟩)
  · rintro hcondition ⟨-, -, haccepted⟩ remover hremover hword
    exact (hcondition.resolve_left haccepted) (removerWithoutBlank_of_mem hremover haccepted hword)

theorem notBypassed_iff_example :
    NotBypassed (ofText "ls -l") ↔
      ContainsBlocked (ofText "ls -l") ∨ ¬RemoverWithoutBlank (ofText "ls -l") :=
  notBypassed_iff (by decide)

/-- A tab behind `rm` is enough. -/
theorem not_notBypassed : ¬NotBypassed (ofText "rm\t-r /home") := by
  intro h
  exact h (by decide +kernel) (ofText "rm") (by decide) (by decide +kernel)

end HiFetch.Security
