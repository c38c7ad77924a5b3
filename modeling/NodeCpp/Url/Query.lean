import NodeCpp.Http.Message

/-!
# The query of a URL

`url.h`: the values of the keys of a query, and `parseUrlQueryString`. Both overloads have the same
loop; one fills the `UrlQuery` it is given and the other one a new one.

Where the code asks for `substr` with the distance to `npos`, it gets all that is left. No position
it passes to `substr` is behind the end of the string.
-/

namespace NodeCpp

open Lib Lib.Text

/-- `UrlQueryItem`: the values of one key. -/
structure UrlQueryItem where
  elems : List Str := []
  deriving DecidableEq, Repr

namespace UrlQueryItem

def add (it : UrlQueryItem) (val : Str) : UrlQueryItem := { elems := it.elems ++ [val] }

def toStr (it : UrlQueryItem) : Str :=
  match it.elems with
  | [] => []
  | first :: rest => rest.foldl (fun ret elem => ret ++ chars [','] ++ elem) first

end UrlQueryItem

/-- `UrlQuery`: the map from keys to their values. -/
structure UrlQuery where
  parsed : Str → Option UrlQueryItem := fun _ => none

namespace UrlQuery

/-- `add`; a key that is not found is inserted, so the assertion on the insertion holds. -/
def add (q : UrlQuery) (key val : Str) : UrlQuery :=
  match q.parsed key with
  | some it => { parsed := Function.update q.parsed key (some (it.add val)) }
  | none => { parsed := Function.update q.parsed key (some (UrlQueryItem.add {} val)) }

/-- `operator []`: the item of a key, or `none`, which has no values. -/
def get (q : UrlQuery) (key : Str) : UrlQueryItem := (q.parsed key).getD {}

def addAll (q : UrlQuery) (pairs : List (Str × Str)) : UrlQuery :=
  pairs.foldl (fun q kv => q.add kv.1 kv.2) q

/-- The values of a key among pairs, in their order. -/
def values (key : Str) (pairs : List (Str × Str)) : List Str :=
  (pairs.filter fun kv => kv.1 = key).map Prod.snd

theorem elems_get_add (q : UrlQuery) (key val k : Str) :
    ((q.add key val).get k).elems = (q.get k).elems ++ if key = k then [val] else [] := by
  unfold add get
  by_cases hk : key = k
  · subst hk
    cases hfound : q.parsed key with
    | some it => simp [UrlQueryItem.add]
    | none => simp [UrlQueryItem.add]
  · have hother : ∀ it, Function.update q.parsed key (some it) k = q.parsed k := fun it =>
      Function.update_of_ne (Ne.symm hk) ..
    rw [if_neg hk, List.append_nil]
    cases hfound : q.parsed key with
    | some it => simp only [hother]
    | none => simp only [hother]

/-- A key has the values it had, followed by those that have been added, in their order. -/
theorem elems_get_addAll (q : UrlQuery) (pairs : List (Str × Str)) (k : Str) :
    ((q.addAll pairs).get k).elems = (q.get k).elems ++ values k pairs := by
  induction pairs generalizing q with
  | nil => simp [addAll, values]
  | cons kv pairs ih =>
    have hrest := ih (q.add kv.1 kv.2)
    rw [elems_get_add, List.append_assoc] at hrest
    rw [addAll, List.foldl_cons]
    refine hrest.trans (congrArg _ ?_)
    by_cases hk : kv.1 = k
    · simp [values, hk]
    · simp [values, hk]

end UrlQuery

namespace Url

def isQuestion (c : UInt8) : Bool := c ∈ chars ['?']

def isEq (c : UInt8) : Bool := c ∈ chars ['=']

def isAmp (c : UInt8) : Bool := c ∈ chars ['&']

/-- The loop of `parseUrlQueryString`, from `start` on. -/
def parseLoop (url : Str) (start : Nat) (q : UrlQuery) : UrlQuery :=
  match _hEq : findFirst isEq url start with
  | none => q.add (url.drop start) []
  | some endEq =>
      match hAmp : findFirst isAmp url (endEq + 1) with
      | none => q.add (substr url start (endEq - start)) (url.drop (endEq + 1))
      | some endAmp =>
          parseLoop url (endAmp + 1)
            (q.add (substr url start (endEq - start))
              (substr url (endEq + 1) (endAmp - endEq - 1)))
termination_by url.length - start
decreasing_by
  have := findFirst_lt _hEq
  have := findFirst_lt hAmp
  omega

/-- `parseUrlQueryString( url, q )`. -/
def parseUrlQueryStringInto (url : Str) (q : UrlQuery) : UrlQuery :=
  match findFirst isQuestion url 0 with
  | none => q
  | some start => parseLoop url (start + 1) q

def parseUrlQueryString (url : Str) : UrlQuery :=
  match findFirst isQuestion url 0 with
  | none => {}
  | some start => parseLoop url (start + 1) {}

end Url

end NodeCpp
