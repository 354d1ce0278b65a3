import Nighthawk.Lib.Text
import Mathlib.Data.Int.Notation

/-! # Statuses

`absl::Status` as an error: the code `kOk` is the other side of an `Except`. -/

namespace Nighthawk

inductive StatusCode where
  | cancelled | unknown | invalidArgument | deadlineExceeded | notFound | alreadyExists | permissionDenied
  | resourceExhausted | failedPrecondition | aborted | outOfRange | unimplemented | internal | unavailable
  | dataLoss | unauthenticated
  deriving DecidableEq, Repr

namespace StatusCode

def all : List StatusCode :=
  [cancelled, unknown, invalidArgument, deadlineExceeded, notFound, alreadyExists, permissionDenied,
    resourceExhausted, failedPrecondition, aborted, outOfRange, unimplemented, internal, unavailable,
    dataLoss, unauthenticated]

/-- The codes are numbered from 1 on. -/
def number (code : StatusCode) : Nat := all.idxOf code + 1

/-- The code of a number other than 0. A number without a name is unknown. -/
def ofNumber (n : ℤ) : StatusCode := if 0 < n then (all[(n - 1).toNat]?).getD unknown else unknown

end StatusCode

structure Status where
  code : StatusCode
  message : Str
  deriving DecidableEq, Repr

end Nighthawk
