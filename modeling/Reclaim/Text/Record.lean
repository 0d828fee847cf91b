/-! Descriptions of values: a name, its fields in order, and lists. -/

namespace Reclaim.Text

def describeBool (value : Bool) : String := if value then "true" else "false"

def describeNat (value : Nat) : String := toString value

def describeList (items : List String) : String :=
  "[" ++ ", ".intercalate items ++ "]"

def describeFields (fields : List (String × String)) : String :=
  ", ".intercalate (fields.map fun field => field.1 ++ ": " ++ field.2)

def describeRecord (name : String) (fields : List (String × String)) : String :=
  name ++ " \x7b " ++ describeFields fields ++ " \x7d"

def describePartial (name : String) (fields : List (String × String)) : String :=
  name ++ " \x7b " ++ describeFields fields ++ ", .. \x7d"

end Reclaim.Text
