import Showcase.Style.Palette
import Showcase.Toml.Document
import Showcase.Toml.Shape

/-!
# Configuration

What the host can set: who is shown at the prompt, who gets messages and how, how much history is
kept, which tree is shown and in which colors. Every setting has a default, and settings that are
not known are ignored.

A configuration is read setting by setting in document order, and checked as a whole afterwards.
-/

namespace Showcase

/-- How messages are delivered. -/
structure NotifierConfig where
  /-- Where messages are posted to; without it none is delivered. -/
  endpoint : Option Text := none
  timeoutMs : Nat := 5000
  deriving DecidableEq, Repr

structure Config where
  hostname : Text := "drinor"
  contactAddress : Text := "hello@drinor.dev"
  historyLimit : Nat := 100
  /-- The file that describes the tree; without it the built-in tree is shown. -/
  treePath : Option Text := none
  notifier : NotifierConfig := {}
  palette : Palette := {}
  deriving DecidableEq, Repr

/-- What a configuration must not say. -/
inductive ConfigFault where
  | emptyHostname
  | invalidContactAddress (address : Text)
  | noHistory
  deriving DecidableEq, Repr

def ConfigFault.message : ConfigFault → Text
  | .emptyHostname => "config error: hostname must not be empty"
  | .invalidContactAddress address =>
    "config error: invalid contact_address: ".toList ++ quoted address
  | .noHistory => "config error: history_limit must be at least 1"

/-- Why a text gives no configuration. -/
inductive ConfigError where
  /-- The text is not TOML. -/
  | malformed
  | shape (cause : Toml.ShapeError)
  | fault (cause : ConfigFault)

open Toml (Table Value ShapeError)

/-- What most settings have to be. -/
def textShape : Text := "a string"

namespace NotifierConfig

def fieldNames : List Text := ["endpoint", "timeout_ms"]

def set (c : NotifierConfig) (name : Text) (v : Value) : Except ShapeError NotifierConfig :=
  if name = "endpoint".toList then do pure { c with endpoint := ← v.asString textShape }
  else if name = "timeout_ms".toList then do pure { c with timeoutMs := ← v.asNatural "u64" }
  else pure c

def ofValue (v : Value) : Except ShapeError NotifierConfig := do
  let fields ← v.asFields fieldNames "struct NotifierConfig"
  fields.foldlM (fun c field => c.set field.1 field.2) {}

end NotifierConfig

namespace Palette

def fieldNames : List Text := ["prompt", "path", "output", "error", "directory"]

def set (p : Palette) (name : Text) (v : Value) : Except ShapeError Palette :=
  if name = "prompt".toList then do pure { p with prompt := ← v.asString textShape }
  else if name = "path".toList then do pure { p with path := ← v.asString textShape }
  else if name = "output".toList then do pure { p with output := ← v.asString textShape }
  else if name = "error".toList then do pure { p with error := ← v.asString textShape }
  else if name = "directory".toList then do pure { p with directory := ← v.asString textShape }
  else pure p

def ofValue (v : Value) : Except ShapeError Palette := do
  let fields ← v.asFields fieldNames "struct Palette"
  fields.foldlM (fun p field => p.set field.1 field.2) {}

end Palette

namespace Config

/-- The configuration with one setting from a document. -/
def set (c : Config) (name : Text) (v : Value) : Except ShapeError Config :=
  if name = "hostname".toList then do pure { c with hostname := ← v.asString textShape }
  else if name = "contact_address".toList then do
    pure { c with contactAddress := ← v.asString textShape }
  else if name = "history_limit".toList then do pure { c with historyLimit := ← v.asNatural "usize" }
  else if name = "tree_path".toList then do pure { c with treePath := ← v.asString "path string" }
  else if name = "notifier".toList then do pure { c with notifier := ← NotifierConfig.ofValue v }
  else if name = "palette".toList then do pure { c with palette := ← Palette.ofValue v }
  else pure c

/-- The settings of a document, over the defaults. -/
def ofTable (t : Table) : Except ShapeError Config :=
  t.foldlM (fun c field => c.set field.1 field.2) {}

/-- The first thing that the configuration must not say. -/
def fault? (c : Config) : Option ConfigFault :=
  if c.hostname.trim = [] then some .emptyHostname
  else if c.contactAddress.hasBlank ∨ c.contactAddress = [] then
    some (.invalidContactAddress c.contactAddress)
  else if c.historyLimit = 0 then some .noHistory
  else none

/-- The configuration that a TOML text describes. -/
def ofToml (text : Text) : Except ConfigError Config :=
  match Toml.parse? text with
  | none => .error .malformed
  | some t =>
    match ofTable t with
    | .error cause => .error (.shape cause)
    | .ok c =>
      match c.fault? with
      | some fault => .error (.fault fault)
      | none => .ok c

/-- The name at the prompt. -/
def hostLabel (c : Config) : Text := c.hostname ++ "@portfolio".toList

end Config

end Showcase
