import CloudVM.Vm.Interface
import CloudVM.Worker.Message

/-!
# Texts the worker builds and reads

Template attributes for `one.template.instantiate`, the search for a base template, and the
address of a machine out of `one.vm.info`.
-/

namespace CloudVM.Worker

open Text

/-- Settings of the worker. `lower` and `asciiFold` stand for `str.lower` and for
`unicodedata.normalize("NFKD", s).encode("ascii", "ignore")`. -/
structure WorkerConfig where
  oneIpOffset : Int := 0
  injectExtraSshKeys : Bool := false
  extraSshKeys : List String := []
  lower : String → String
  asciiFold : String → String

private def replaceChar (c : Char) (by' : List Char) (s : String) : String :=
  String.ofList (s.toList.flatMap fun d => if d = c then by' else [d])

def escapeOneTemplateValue (value : String) : String :=
  replaceChar '"' ['\\', '"'] (replaceChar '\\' ['\\', '\\'] value)

def allowedPrefixes : List String := ["ssh-rsa", "ssh-ed25519", "ecdsa-sha2-nistp256"]

/-- The loop body of `_sanitize_ssh_public_keys`: what is kept so far, and the next key. -/
def keepSshKey (kept : List String) (raw : String) : List String :=
  let key := pyStrip raw
  if key = "" then kept
  else if 4096 < key.toList.length then kept
  else if !allowedPrefixes.any (startsWith key) then kept
  else if kept.contains key then kept
  else kept ++ [key]

def sanitizeSshPublicKeys (keys : List String) : List String := keys.foldl keepSshKey []

def extraTemplateBase (cpu ramMb : Int) (sshKeys : List String) : String :=
  let base := s!"CPU={cpu}\nVCPU={cpu}\nMEMORY={ramMb}\n"
  let joined := String.intercalate "\n" sshKeys
  if joined = "" then base
  else
    let oneLine := replaceChar '\n' ['\\', 'n'] (replaceChar '\r' [] joined)
    let escaped := escapeOneTemplateValue oneLine
    base ++ "SSH_PUBLIC_KEY=\"" ++ escaped ++ "\"\n"

section Quotes

/-- A character between the quotes of an attribute. -/
def escapeChar (c : Char) : List Char :=
  if c = '\\' then ['\\', '\\'] else if c = '"' then ['\\', '"'] else [c]

/-- A character of the keys on their way into one line. -/
def oneLineChar (c : Char) : List Char :=
  if c = '\r' then [] else if c = '\n' then ['\\', 'n'] else [c]

theorem escapeOneTemplateValue_eq (value : String) :
    escapeOneTemplateValue value = String.ofList (value.toList.flatMap escapeChar) := by
  simp only [escapeOneTemplateValue, replaceChar, String.toList_ofList, List.flatMap_assoc]
  congr 2
  funext c
  by_cases hslash : c = '\\'
  · subst hslash
    decide
  · by_cases hquote : c = '"'
    · subst hquote
      decide
    · simp [escapeChar, hslash, hquote]

/-- `keys_for_template`. -/
def keysForTemplate (sshKeys : List String) : String :=
  String.ofList ((String.intercalate "\n" sshKeys).toList.flatMap oneLineChar)

theorem extraTemplateBase_eq (cpu ramMb : Int) (sshKeys : List String) :
    extraTemplateBase cpu ramMb sshKeys =
      s!"CPU={cpu}\nVCPU={cpu}\nMEMORY={ramMb}\n" ++
        if String.intercalate "\n" sshKeys = "" then ""
        else "SSH_PUBLIC_KEY=\"" ++ escapeOneTemplateValue (keysForTemplate sshKeys) ++ "\"\n" := by
  have hline : replaceChar '\n' ['\\', 'n'] (replaceChar '\r' [] (String.intercalate "\n" sshKeys)) =
      keysForTemplate sshKeys := by
    simp only [keysForTemplate, replaceChar, String.toList_ofList, List.flatMap_assoc]
    congr 2
    funext c
    by_cases hreturn : c = '\r'
    · subst hreturn
      decide
    · by_cases hnewline : c = '\n'
      · subst hnewline
        decide
      · simp [oneLineChar, hreturn, hnewline]
  rw [extraTemplateBase]
  by_cases hempty : String.intercalate "\n" sshKeys = ""
  · simp [hempty]
  · simp [hempty, hline, String.append_assoc]

end Quotes

/-- The credential attributes; the password only where there is one. -/
def credsSnippet (username : String) (password : Option String) : String :=
  "USERNAME=\"" ++ escapeOneTemplateValue username ++ "\"\n" ++
    match password with
    | none | some "" => ""
    | some p => "PASSWORD=\"" ++ escapeOneTemplateValue p ++ "\"\n"

section Templates

variable (cfg : WorkerConfig)

def isCloudvmBaseTemplate (t : OneTemplate) : Bool := t.cloudvmBase = some "YES"

/-- `re.sub(r"[^a-z0-9]", "", s.lower())` after folding to ASCII. -/
def normalize (s : String) : String :=
  String.ofList ((cfg.lower (cfg.asciiFold s)).toList.filter fun c => c.isLower || c.isDigit)

/-- The four passes of `_find_template` over the base templates of the cache. -/
def findTemplateIn (cache : List OneTemplate) (templateName : String) : Option Int :=
  let templates := cache.filter isCloudvmBaseTemplate
  let targetLower := cfg.lower templateName
  let targetNorm := normalize cfg templateName
  let hit :=
    (templates.find? fun t => t.name = templateName) <|>
    (templates.find? fun t => cfg.lower t.name = targetLower) <|>
    (templates.find? fun t => normalize cfg t.name = targetNorm) <|>
    (templates.find? fun t => contains (cfg.lower t.name) targetLower)
  hit.map OneTemplate.id

end Templates

section Addresses

private def digitsValue? (cs : List Char) : Option Nat :=
  if cs.isEmpty || !cs.all Char.isDigit then none
  else some (cs.foldl (fun n c => 10 * n + (c.toNat - 48)) 0)

/-- `int(s)` on ASCII texts: blanks around, a sign, single underscores between digits. -/
def pyInt? (s : String) : Option Int :=
  let cs := (pyStrip s).toList
  let (negative, body) := match cs with
    | '-' :: rest => (true, rest)
    | '+' :: rest => (false, rest)
    | _ => (false, cs)
  let groups := body.splitOn '_'
  if groups.any List.isEmpty then none
  else (digitsValue? (body.filter fun c => c != '_')).map fun n =>
    if negative then -(n : Int) else n

/-- `_apply_ip_offset`: the last octet moved by the offset, or the text as it was. -/
def applyIpOffset (ip : String) (offset : Int) : String :=
  if offset = 0 then ip
  else
    let parts := (pyStrip ip).toList.splitOn '.'
    if parts.length ≠ 4 then ip
    else match parts.mapM fun p => pyInt? (String.ofList p) with
      | some [a, b, c, d] =>
          if [a, b, c, d].any fun o => o < 0 || 255 < o then ip
          else if 255 < d + offset then ip
          else
            let e := d + offset
            s!"{a}.{b}.{c}.{e}"
      | _ => ip

private def nonEmptyText (s : Option String) : Option String := s.filter fun t => t ≠ ""

/-- `_extract_ip`: first NIC, then context, then the guest's own report. -/
def extractIp (vm : OneVmInfo) : Option String :=
  nonEmptyText (vm.nicIps.head?.bind id) <|>
  nonEmptyText vm.eth0Ip <|>
  nonEmptyText vm.guestIp <|>
  (nonEmptyText vm.guestIpAddresses).map fun s =>
    pyStrip (String.ofList (s.toList.takeWhile fun c => c != ','))

end Addresses

end CloudVM.Worker
