import Mathlib.Tactic.SplitIfs
import Nighthawk.Lib.Text

/-!
# Header maps

The part of Envoy's header maps that Nighthawk uses. Names are lower case, and a name may
have several values. In the map of a request, `host` is another name of `:authority`.
-/

namespace Nighthawk

abbrev HeaderMap := List (Str × Str)

namespace HeaderMap

def get (h : HeaderMap) (name : Str) : List Str := (h.filter (·.1 = name)).map (·.2)

def remove (h : HeaderMap) (name : Str) : HeaderMap := h.filter (·.1 ≠ name)

def addCopy (h : HeaderMap) (name value : Str) : HeaderMap := h ++ [(name, value)]

/-- Replaces every value of the name. -/
def setCopy (h : HeaderMap) (name value : Str) : HeaderMap := addCopy (remove h name) name value

/-- The name under which the map of a request keeps a header. -/
def requestName (name : Str) : Str :=
  if Text.toLower name = "host".toList then ":authority".toList else Text.toLower name

/-- What a request has under a name, in any spelling. -/
def lookup (h : HeaderMap) (name : Str) : List Str := get h (requestName name)

/-- Each header of a request replaces every value of its name. -/
def setAll (h : HeaderMap) (headers : List (Str × Str)) : HeaderMap :=
  headers.foldl (fun h e => setCopy h (requestName e.1) e.2) h

def contentLengthName : Str := "content-length".toList

/-- The value of the content-length header, if there is one. -/
def contentLength (h : HeaderMap) : Option Str := (get h contentLengthName).head?

def setContentLength (h : HeaderMap) (length : Nat) : HeaderMap :=
  setCopy h contentLengthName (Text.decimal length)

/-! ## Values of a name -/

theorem get_setCopy_self (h : HeaderMap) (name value : Str) : get (setCopy h name value) name = [value] := by
  simp [get, setCopy, addCopy, remove, List.filter_append, List.filter_filter]

theorem get_setCopy_of_ne (h : HeaderMap) {name other : Str} (value : Str) (hne : other ≠ name) :
    get (setCopy h name value) other = get h other := by
  have hkeep : ∀ e ∈ h, (decide (e.1 = other) && decide (e.1 ≠ name)) = decide (e.1 = other) := by
    intro e _
    by_cases he : e.1 = other
    · simp [he, hne]
    · simp [he]
  simp only [get, setCopy, addCopy, remove, List.filter_append, List.filter_filter, List.filter_congr hkeep]
  simp [Ne.symm hne]

theorem get_setCopy (h : HeaderMap) (name value other : Str) :
    get (setCopy h name value) other = if other = name then [value] else get h other := by
  split_ifs with hname
  · rw [hname, get_setCopy_self]
  · exact get_setCopy_of_ne h value hname

/-- The last value that a list of headers gives to the name of a request. -/
def lastValue (headers : List (Str × Str)) (name : Str) : Option Str :=
  ((headers.filter fun e => requestName e.1 = name).map (·.2)).getLast?

theorem get_setAll (h : HeaderMap) (headers : List (Str × Str)) (name : Str) :
    get (setAll h headers) name = match lastValue headers name with
      | some value => [value]
      | none => get h name := by
  induction headers using List.reverseRecOn with
  | nil => rfl
  | append_singleton headers e ih =>
    rw [setAll, List.foldl_append, List.foldl_cons, List.foldl_nil, get_setCopy]
    unfold lastValue
    split_ifs with hname
    · simp [List.filter_append, hname]
    · simpa [List.filter_append, Ne.symm hname, lastValue, setAll] using ih

theorem contentLength_setCopy (h : HeaderMap) (name value : Str) :
    contentLength (setCopy h name value) = if name = contentLengthName then
      some value else contentLength h := by
  unfold contentLength
  rw [get_setCopy]
  by_cases hname : name = contentLengthName
  · rw [if_pos hname, if_pos hname.symm]
    rfl
  · rw [if_neg hname, if_neg (Ne.symm hname)]

@[simp] theorem contentLength_setContentLength (h : HeaderMap) (length : Nat) :
    contentLength (setContentLength h length) = some (Text.decimal length) := by
  rw [setContentLength, contentLength_setCopy, if_pos rfl]

theorem contentLength_setAll (h : HeaderMap) (headers : List (Str × Str)) :
    contentLength (setAll h headers) = (lastValue headers contentLengthName).or (contentLength h) := by
  unfold contentLength
  rw [get_setAll]
  cases lastValue headers contentLengthName <;> rfl

end HeaderMap

end Nighthawk
