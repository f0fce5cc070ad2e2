import CloudVM.Assistant.Prompt
import CloudVM.Assistant.Scope
import CloudVM.Framework.Logic

/-!
# Completions

The two providers of a model and the order in which they are asked. A provider is a request over
HTTP and what is made of the answer to it; whatever goes wrong is an error with a message.
-/

namespace CloudVM.Assistant

open Access Text Process

section Providers

structure ProviderChatResult where
  provider : String
  model : String
  content : String
deriving DecidableEq, Repr

/-- A message as Ollama takes it. -/
structure OllamaMessage where
  role : ProviderRole
  content : String
  images : Option (List String)
deriving DecidableEq, Repr

/-- A message as OpenRouter takes it: a text, or a text and the URLs of images. -/
structure OpenRouterMessage where
  role : ProviderRole
  text : String
  imageUrls : Option (List String)
deriving DecidableEq, Repr

/-- The body of a request to a provider. -/
inductive ProviderRequest where
  | ollama (model : String) (messages : List OllamaMessage)
  | openRouter (model : String) (messages : List OpenRouterMessage)
deriving DecidableEq, Repr

/-- What becomes of a request: it fails or its answer cannot be read, it is refused, or there is
data. -/
inductive ProviderAnswer where
  | failed (message : String)
  | refused (status : ℕ) (errorBody : String)
  | data (content model : Option String)
deriving DecidableEq, Repr

@[reducible] def providerInterface : Interface where
  Call := ProviderRequest
  Answer := fun _ => ProviderAnswer

abbrev ProviderProcess (α : Type) := Process providerInterface Failure α

inductive ProviderName where
  | ollama
  | openrouter
deriving DecidableEq, Repr

def ProviderName.name : ProviderName → String
  | .ollama => "ollama"
  | .openrouter => "openrouter"

/-- The environment of the AI service, as far as the providers read it. -/
structure ProviderSettings where
  fallbackEnabled : Bool := true
  providerPreference : String := "ollama"
  ollamaBaseUrl : String := "http://ollama:11434"
  ollamaModel : String := "mistral"
  ollamaVisionModel : String := ""
  openRouterApiKey : Option String := none
  openRouterModel : String := "meta-llama/llama-3.1-8b-instruct:free"

variable (env : ProviderSettings)

def ProviderName.isAvailable : ProviderName → Bool
  | .ollama => env.ollamaBaseUrl ≠ "" && env.ollamaModel ≠ ""
  | .openrouter => (truthy env.openRouterApiKey).isSome

/-- `image.slice(markerIndex + marker.length)`, or the whole text without a marker. -/
def stripMarker (image : String) : String :=
  match Pieces.cut "base64,".toList image.toList with
  | none => image
  | some (_, rest) => String.ofList rest

def ProviderMessage.toOllama (message : ProviderMessage) : OllamaMessage where
  role := message.role
  content := message.content
  images :=
    if message.images.isEmpty then none
    else some ((message.images.map stripMarker).filter (· ≠ ""))

def ProviderMessage.toOpenRouter (message : ProviderMessage) : OpenRouterMessage where
  role := message.role
  text := message.content
  imageUrls := if message.images.isEmpty then none else some message.images

def hasImages (messages : List ProviderMessage) : Bool := messages.any fun m => !m.images.isEmpty

/-- `replace(/\s+/g, " ").trim()`, then at most 300 characters of it. -/
def errorDetail (errorBody : String) : String :=
  let normalized := jsTrim (String.ofList (collapseSpace errorBody.toList))
  if normalized = "" then "" else ": " ++ String.ofList (Pieces.sliceTo 300 normalized.toList)

def ollamaChat (messages : List ProviderMessage) : ProviderProcess ProviderChatResult := do
  if hasImages messages && env.ollamaVisionModel = "" then
    throw ⟨.other, "Vision model is not configured. Set OLLAMA_VISION_MODEL for image analysis."⟩
  else
    let modelToUse := if hasImages messages then env.ollamaVisionModel else env.ollamaModel
    match ← .call (.ollama modelToUse (messages.map ProviderMessage.toOllama)) .ret with
    | .failed message => throw ⟨.other, message⟩
    | .refused status errorBody =>
      let detail := errorDetail errorBody
      throw ⟨.other, s!"Ollama request failed with status {status}{detail}"⟩
    | .data content model =>
      match truthy (content.map jsTrim) with
      | none => throw ⟨.other, "Ollama returned an empty response"⟩
      | some content => pure ⟨"ollama", (truthy model).getD modelToUse, content⟩

def openRouterChat (messages : List ProviderMessage) : ProviderProcess ProviderChatResult := do
  if (truthy env.openRouterApiKey).isNone then
    throw ⟨.other, "OpenRouter API key is not configured"⟩
  else
    match ← .call (.openRouter env.openRouterModel (messages.map ProviderMessage.toOpenRouter))
      .ret with
    | .failed message => throw ⟨.other, message⟩
    | .refused status _ => throw ⟨.other, s!"OpenRouter request failed with status {status}"⟩
    | .data content model =>
      match truthy (content.map jsTrim) with
      | none => throw ⟨.other, "OpenRouter returned an empty response"⟩
      | some content => pure ⟨"openrouter", (truthy model).getD env.openRouterModel, content⟩

def ProviderName.chat (messages : List ProviderMessage) :
    ProviderName → ProviderProcess ProviderChatResult
  | .ollama => ollamaChat env messages
  | .openrouter => openRouterChat env messages

end Providers

section Completion

variable (env : ProviderSettings)

def getProvidersByPreference : List ProviderName :=
  let primary := if env.providerPreference = "openrouter" then .openrouter else .ollama
  let secondary := if primary = .ollama then .openrouter else .ollama
  if env.fallbackEnabled then [primary, secondary] else [primary]

/-- Ask one provider after the other; the errors of those that failed are kept. -/
def firstSuccess (messages : List ProviderMessage) :
    List ProviderName → List String → ProviderProcess (ProviderChatResult ⊕ List String)
  | [], errors => .ret (.inr errors)
  | provider :: rest, errors => do
    match ← (provider.chat env messages).attempt with
    | .ok result => pure (.inl result)
    | .error error => firstSuccess messages rest (errors ++ [provider.name ++ ": " ++ error.message])

/-- `/requires more system memory|model request too large/i`. -/
def memoryErrorPattern : Pattern Char :=
  .alt (word "requires more system memory") (word "model request too large")

def visionFallback : ProviderChatResult where
  provider := "policy-engine"
  model := "vision-fallback"
  content := String.intercalate " " [
    "I received your image, but image analysis is unavailable on this machine right now " ++
      "(insufficient RAM for the current vision model).",
    "Text chat is still working normally.",
    "To enable image understanding, use a smaller vision model, allocate more Docker memory, or " ++
      "configure a cloud vision provider."]

/-- What is left to say once every provider has failed. -/
def allFailed (errors : List String) (hasImages : Bool) : Except Failure ProviderChatResult :=
  let memoryError := errors.any fun entry => memoryErrorPattern.test entry.toList
  if memoryError && hasImages then .ok visionFallback
  else if memoryError then
    .error ⟨.other, "Current local model cannot run with available memory. Keep OLLAMA_MODEL on a " ++
      "lighter text model for normal chat."⟩
  else .error ⟨.other, "All AI providers failed. " ++ String.intercalate " | " errors⟩

def generateCompletion (messages : List ProviderMessage) (hasImages : Bool) :
    ProviderProcess ProviderChatResult := do
  let providers := (getProvidersByPreference env).filter (ProviderName.isAvailable env)
  if providers.isEmpty then
    throw ⟨.other, "No AI providers are available. Configure Ollama or a free API key."⟩
  else
    match ← firstSuccess env messages providers [] with
    | .inl result => pure result
    | .inr errors => Process.ofExcept (allFailed errors hasImages)

end Completion

end CloudVM.Assistant
