import Mathlib.Data.List.Basic

/-!
# Json — the values exchanged between the services

Message bodies and room events are JSON.  A number is an integer: no value the modelled code reads
or writes has a fraction.
-/

namespace Bookit

inductive Json where
  | null
  | bool (b : Bool)
  | num (n : Int)
  | str (s : String)
  | arr (xs : List Json)
  | obj (fields : List (String × Json))

namespace Json

/-- Set a field of an object: replaced where it is present, added where it is not. -/
def insert (key : String) (v : Json) : Json → Json
  | obj fields =>
      if fields.any (fun f => f.1 == key) then
        obj (fields.map fun f => if f.1 == key then (key, v) else f)
      else
        obj (fields ++ [(key, v)])
  | j => j

def get (key : String) : Json → Option Json
  | obj fields => (fields.find? fun f => f.1 == key).map Prod.snd
  | _ => none

def asStr : Json → Option String
  | str s => some s
  | _ => none

def asI64 : Json → Option Int
  | num n => some n
  | _ => none

def asArray : Json → Option (List Json)
  | arr xs => some xs
  | _ => none

end Json

end Bookit
