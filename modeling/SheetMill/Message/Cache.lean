import SheetMill.Message.Transcoder

/-!
# Messages about the cache

Requests to the key-value cache and its answers.
-/

namespace SheetMill.Message

open Wire

def keysRequest : Single String := .text "pattern"

def keysResponse : Single (List String) := .texts "keys"

/-- Sets a text of the cache. -/
structure SetRequest where
  key : String := ""
  value : String := ""
  expiration : Option Int := none

namespace SetRequest

def codec : Codec SetRequest := ⟨{}, [
  .text 1 (·.key) fun x m => { m with key := x },
  .text 2 (·.value) fun x m => { m with value := x },
  .int? 3 (·.expiration) fun x m => { m with expiration := x }]⟩

def ofValue (v : Value) : Outcome SetRequest := do
  let key ← v.item "key"
  let value ← v.item "value"
  let expiration ← v.item "expiration"
  return {
    key := ← Slot.text key
    value := ← Slot.text value
    expiration := ← Slot.int? expiration }

def toValue (m : SetRequest) : Value :=
  .record [("key", .text m.key), ("value", .text m.value), ("expiration", intValue? m.expiration)]

def transcoder : Transcoder := .of codec ofValue fun m => .ok m.toValue

end SetRequest

def setResponse : Single Bool := .bool "success"

def getRequest : Single String := .text "key"

/-- A text of the cache. -/
structure GetResponse where
  value : Option String := none
  found : Bool := false

namespace GetResponse

def codec : Codec GetResponse := ⟨{}, [
  .text? 1 (·.value) fun x m => { m with value := x },
  .bool 2 (·.found) fun x m => { m with found := x }]⟩

def ofValue (v : Value) : Outcome GetResponse := do
  let value ← v.item "value"
  let found ← v.item "found"
  return { value := ← Slot.text? value, found := ← Slot.bool found }

def toValue (m : GetResponse) : Value :=
  .record [("value", .ofText? m.value), ("found", .bool m.found)]

def transcoder : Transcoder := .of codec ofValue fun m => .ok m.toValue

end GetResponse

def deleteRequest : Single (List String) := .texts "keys"

def deleteResponse : Single Int := .int "count"

def pingResponse : Single Bool := .bool "pong"

def cacheResponse : Single (List (String × String)) := .textMap "cache"

def clearResponse : Single Bool := .bool "success"

end SheetMill.Message
