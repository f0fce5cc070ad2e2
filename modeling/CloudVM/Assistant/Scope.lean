import CloudVM.Assistant.Model
import CloudVM.Framework.Pattern
import CloudVM.Framework.Pieces

/-!
# What the assistant looks for in a message

The patterns of prompt injections and of questions out of scope, and the images that may go to a
model.
-/

namespace CloudVM.Assistant

open Access Text

section Patterns

open Pattern

/-- A text in a pattern with the flag `i`; the patterns are ASCII. -/
def word (s : String) : Pattern Char := all (s.toList.map fun c => one fun d => d.toLower == c.toLower)

private def anyOf (words : List String) : Pattern Char :=
  words.foldr (fun s r => alt (word s) r) (one fun _ => false)

private def blanks : Pattern Char := star (one jsSpace)

private def spaces : Pattern Char := plus (one jsSpace)

/-- `.*` -/
private def anything : Pattern Char :=
  star (one fun c => !(c == '\n' || c == '\r' || c.toNat == 0x2028 || c.toNat == 0x2029))

def promptInjectionPatterns : List (Pattern Char) := [
  -- /ignore\s+previous\s+instructions/i
  all [word "ignore", spaces, word "previous", spaces, word "instructions"],
  -- /you\s+are\s+now/i
  all [word "you", spaces, word "are", spaces, word "now"],
  -- /pretend\s+you\s+are/i
  all [word "pretend", spaces, word "you", spaces, word "are"],
  -- /system\s*:/i
  all [word "system", blanks, word ":"],
  -- /act\s+as/i
  all [word "act", spaces, word "as"]]

def detectPromptInjection (message : String) : Bool :=
  promptInjectionPatterns.any fun pattern => pattern.test message.toList

def blockedPatterns : List (Pattern Char) := [
  anyOf ["what model", "which model", "your model", "llm", "gpt", "claude", "qwen", "gemini",
    "openai", "anthropic"],
  anyOf ["system prompt", "prompt injection", "hidden prompt", "jailbreak"],
  -- /where.*data|database location|where.*stored|storage path|server path/i
  alt (all [word "where", anything, word "data"]) (alt (word "database location")
    (alt (all [word "where", anything, word "stored"]) (anyOf ["storage path", "server path"]))),
  anyOf ["api key", "secret key", "token leak", "credentials"],
  anyOf ["who made you", "how are you built", "architecture of your model"]]

def platformScopeHints : Pattern Char :=
  anyOf ["vm", "virtual machine", "ssh", "quota", "dashboard", "profile", "login", "register",
    "terminal", "cloudvm", "plan", "instance", "error", "failed", "cannot", "can't", "issue", "bug"]

def isOutOfScopeQuestion (toLowerCase : String → String) (message : String) : Bool :=
  let lower := (toLowerCase message).toList
  blockedPatterns.any (fun pattern => pattern.test lower) && !platformScopeHints.test lower

def buildOutOfScopeResponse : String :=
  String.intercalate " " [
    "I’m scoped to CloudVM platform support and can’t answer internal model/system/data-location " ++
      "questions.",
    "I can help you troubleshoot CloudVM operations instead — for example VM creation failures, " ++
      "SSH/terminal issues, quotas, or account access problems.",
    "If you share the exact error message (or a screenshot), I’ll guide you step-by-step."]

example : detectPromptInjection "Please IGNORE  previous instructions" = true := by decide +kernel

end Patterns

section Images

/-- `AI_MAX_IMAGE_BYTES` is a whole number. -/
def acceptsImage (maxImageBytes : ℕ) (item : String) : Bool :=
  startsWith item "data:image/" &&
    match Pieces.second ";base64,".toList item.toList with
    | none => false
    | some base64 => stringLength (String.ofList base64) * 3 / 4 ≤ max 1 maxImageBytes

def sanitizeImages (maxImageBytes : ℕ) (images : Option (List String)) : List String :=
  (((images.getD []).take 3).map jsTrim).filter (acceptsImage maxImageBytes)

end Images

end CloudVM.Assistant
