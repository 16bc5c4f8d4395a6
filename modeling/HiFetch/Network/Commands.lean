import HiFetch.Library.ShellWords
import HiFetch.Utils.CommandOutput

/-!
# External texts in shell commands

`ping_host` and `get_wireless_info` print a text from outside into a command line, and
`execute_cmd` runs it in a shell.  The text of a name server is what follows the key and the blanks
in a line of `/etc/resolv.conf`, and the name of an interface is what the kernel allows.  Nothing
is quoted, so a text is an argument of its own exactly when the shell finds no special byte in it.

The texts of name servers are copied into 46 bytes without a check.  What a copy that does not fit
does to the command is not defined, so there is no command then.

No header declares `execute_cmd`.  That does not change the text that it is given; what its callers
make of the pointer that comes back is left out here.
-/

namespace HiFetch.Network

open CString Shell Utils

/-! ## Commands -/

/-- `snprintf` with one `%s` between fixed texts. -/
def snprintf (size : ℕ) (before text after : CString) : CString :=
  (before ++ text ++ after).take (size - 1)

/-- `strcpy` into an array that is large enough. -/
def strcpy (size : ℕ) (source : CString) : Option CString :=
  if source.length < size then some source else none

/-- What `execute_cmd_fast` gives to `popen`. -/
def executeCmdFast (cmd : CString) : Option CString :=
  if cmd.length = 0 ∨ 2048 < cmd.length then none else some cmd

def executeCmd (cmd : CString) : Option CString := executeCmdFast cmd

/-- `ping -c 1 -W 1 ` -/
def pingBefore : CString :=
  ⟨[112, 105, 110, 103, 32, 45, 99, 32, 49, 32, 45, 87, 32, 49, 32], by decide⟩

/-- ` 2>/dev/null | grep 'time=' | sed 's/.*time=\([0-9.]*\).*/\1/'` -/
def pingAfter : CString :=
  ⟨[32, 50, 62, 47, 100, 101, 118, 47, 110, 117, 108, 108, 32, 124, 32, 103, 114, 101, 112, 32,
    39, 116, 105, 109, 101, 61, 39, 32, 124, 32, 115, 101, 100, 32, 39, 115, 47, 46, 42, 116,
    105, 109, 101, 61, 92, 40, 91, 48, 45, 57, 46, 93, 42, 92, 41, 46, 42, 47, 92, 49, 47, 39],
    by decide⟩

def pingHost (hostname : CString) : Option CString :=
  executeCmd (snprintf 256 pingBefore hostname pingAfter)

/-- `iwconfig ` -/
def iwconfigBefore : CString :=
  ⟨[105, 119, 99, 111, 110, 102, 105, 103, 32], by decide⟩

/-- ` 2>/dev/null` -/
def iwconfigAfter : CString :=
  ⟨[32, 50, 62, 47, 100, 101, 118, 47, 110, 117, 108, 108], by decide⟩

/-- The command of `get_wireless_info` for an interface, which is wireless if `stat` finds its
directory. -/
def getWirelessInfo (isWireless : Bool) (name : CString) : Option CString :=
  if isWireless then executeCmd (snprintf 256 iwconfigBefore name iwconfigAfter) else none

/-! ## Name servers -/

def nameserverKey : CString :=
  ⟨[110, 97, 109, 101, 115, 101, 114, 118, 101, 114], by decide⟩

/-- What follows the key and the blanks. -/
def nameserver (line : CString) : Option CString :=
  if nameserverKey.bytes.isPrefixOf line.bytes then
    some ⟨(line.bytes.drop 10).dropWhile fun byte ↦ byte == 32 || byte == 9, fun hmem ↦
      line.noNul (List.mem_of_mem_drop ((List.dropWhile_sublist _).subset hmem))⟩
  else none

/-- The lines of `/etc/resolv.conf` that name a server, at most 16.  The buffer is not initialized
before the file is read. -/
def nameservers (buffer : List UInt8) (file : FileRead) : List CString :=
  match readFileFast buffer 1024 file with
  | (1, filled) => ((tokens (ofBuffer filled) 10).filterMap nameserver).take 16
  | _ => []

/-- A name server: the text in its line, and the command that is run for it. -/
structure DnsServer where
  ip : CString
  command : Option CString

/-- `detect_dns_servers` copies every text into an array of 46 bytes. -/
def detectDnsServers (buffer : List UInt8) (file : FileRead) : List DnsServer :=
  (nameservers buffer file).map fun ip ↦ ⟨ip, (strcpy 46 ip).bind pingHost⟩

/-! ## The law -/

/-- A name that the kernel allows. -/
structure InterfaceName where
  name : CString
  pos : 0 < name.length
  length_le : name.length ≤ 15
  noSlash : 47 ∉ name.bytes
  noSpace : ∀ byte ∈ name.bytes, isSpace byte = false

/-- Every name server that is found is pinged by a command with its text as one argument. -/
def PingsContained (buffer : List UInt8) (file : FileRead) : Prop :=
  ∀ server ∈ detectDnsServers buffer file, ∃ command, server.command = some command ∧
    SingleArgument pingBefore.bytes server.ip.bytes pingAfter.bytes command.bytes

/-- A wireless interface is asked by a command with its name as one argument. -/
def WirelessContained (isWireless : Bool) (interface : InterfaceName) : Prop :=
  isWireless = true → ∃ command, getWirelessInfo isWireless interface.name = some command ∧
    SingleArgument iwconfigBefore.bytes interface.name.bytes iwconfigAfter.bytes command.bytes

/-! ## The commands -/

/-- A short command is neither cut nor refused. -/
theorem executeCmd_snprintf {before text after : CString} (hbefore : 0 < before.length)
    (hlength : before.length + text.length + after.length < 256) :
    executeCmd (snprintf 256 before text after) = some (before ++ text ++ after) := by
  have hwhole : (before ++ text ++ after).length = before.length + text.length + after.length := by
    rw [CString.length_append, CString.length_append]
  have hprinted : snprintf 256 before text after = before ++ text ++ after :=
    take_eq_self (by omega)
  rw [hprinted, executeCmd, executeCmdFast, if_neg (by omega)]

/-- A command is contained exactly when its text is ordinary, if its fixed parts are complete and
end with and begin with a blank. -/
theorem singleArgument_command {before after : CString} {rest : List UInt8}
    {first second : List Token}
    (hbefore : Lexer.start.feed before.bytes = some (first, Lexer.start))
    (hafter : after.bytes = 32 :: rest) (hrest : lex rest = some second) (text : CString) :
    SingleArgument before.bytes text.bytes after.bytes (before ++ text ++ after).bytes ↔
      Ordinary text.bytes := by
  rw [bytes_append, bytes_append, hafter]
  exact singleArgument_iff_ordinary hbefore hrest

theorem pingHost_eq {hostname : CString} (h : hostname.length < 46) :
    pingHost hostname = some (pingBefore ++ hostname ++ pingAfter) := by
  have hbefore : pingBefore.length = 15 := rfl
  have hafter : pingAfter.length = 62 := rfl
  exact executeCmd_snprintf (by omega) (by omega)

theorem singleArgument_ping (hostname : CString) :
    SingleArgument pingBefore.bytes hostname.bytes pingAfter.bytes
      (pingBefore ++ hostname ++ pingAfter).bytes ↔ Ordinary hostname.bytes :=
  singleArgument_command (by rfl) rfl (by rfl) hostname

theorem getWirelessInfo_eq (interface : InterfaceName) :
    getWirelessInfo true interface.name =
      some (iwconfigBefore ++ interface.name ++ iwconfigAfter) := by
  have hbefore : iwconfigBefore.length = 9 := rfl
  have hafter : iwconfigAfter.length = 12 := rfl
  have hname := interface.length_le
  exact executeCmd_snprintf (by omega) (by omega)

theorem singleArgument_iwconfig (name : CString) :
    SingleArgument iwconfigBefore.bytes name.bytes iwconfigAfter.bytes
      (iwconfigBefore ++ name ++ iwconfigAfter).bytes ↔ Ordinary name.bytes :=
  singleArgument_command (by rfl) rfl (by rfl) name

/-! ## Containment -/

theorem pingsContained_iff (buffer : List UInt8) (file : FileRead) :
    PingsContained buffer file ↔
      ∀ ip ∈ nameservers buffer file, ip.length < 46 ∧ Ordinary ip.bytes := by
  unfold PingsContained detectDnsServers
  rw [List.forall_mem_map]
  apply forall₂_congr
  intro ip _
  dsimp only
  constructor
  · rintro ⟨command, hcommand, hargument⟩
    obtain ⟨copy, hcopy, -⟩ := Option.bind_eq_some_iff.1 hcommand
    unfold strcpy at hcopy
    split_ifs at hcopy with hfits
    exact ⟨hfits, hargument.ordinary⟩
  · rintro ⟨hfits, hordinary⟩
    refine ⟨pingBefore ++ ip ++ pingAfter, ?_, (singleArgument_ping ip).2 hordinary⟩
    unfold strcpy
    rw [if_pos hfits, Option.bind_some, pingHost_eq hfits]

theorem wirelessContained_iff (isWireless : Bool) (interface : InterfaceName) :
    WirelessContained isWireless interface ↔
      (isWireless = true → Ordinary interface.name.bytes) := by
  apply forall_congr'
  intro hwireless
  rw [hwireless, getWirelessInfo_eq]
  simp only [Option.some.injEq, exists_eq_left']
  exact singleArgument_iwconfig interface.name

/-- A text from outside is one argument of its command exactly when it is ordinary.  The text of a
name server also has to fit into its array. -/
theorem contained_iff_ordinary (buffer : List UInt8) (file : FileRead) (isWireless : Bool)
    (interface : InterfaceName) :
    (PingsContained buffer file ↔
        ∀ ip ∈ nameservers buffer file, ip.length < 46 ∧ Ordinary ip.bytes) ∧
      (WirelessContained isWireless interface ↔
        (isWireless = true → Ordinary interface.name.bytes)) :=
  ⟨pingsContained_iff buffer file, wirelessContained_iff isWireless interface⟩

/-- `nameserver 1;id` and a line break. -/
def injectingFile : FileRead :=
  .delivered [110, 97, 109, 101, 115, 101, 114, 118, 101, 114, 32, 49, 59, 105, 100, 10] 16

/-- `w;id` -/
def injectingInterface : InterfaceName where
  name := ⟨[119, 59, 105, 100], by decide⟩
  pos := by decide
  length_le := by decide
  noSlash := by decide
  noSpace := by decide +kernel

/-- The semicolon ends the command, and `id` is run. -/
theorem not_contained_injecting :
    ¬PingsContained (List.replicate 1024 0) injectingFile ∧
      ¬WirelessContained true injectingInterface := by
  constructor
  · intro h
    have hmem : ofBuffer [49, 59, 105, 100] ∈
        nameservers (List.replicate 1024 0) injectingFile := by decide +kernel
    obtain ⟨-, hordinary⟩ := (pingsContained_iff _ _).1 h _ hmem
    exact absurd (hordinary.ordinary 59 (by decide)) (by decide)
  · intro h
    have hordinary := (wirelessContained_iff true injectingInterface).1 h rfl
    exact absurd (hordinary.ordinary 59 (by decide)) (by decide)

end HiFetch.Network
