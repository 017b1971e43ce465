/-!
# Lines of a dump

Every line of a dump ends in a carriage return and a line feed.
-/

namespace SecurityDescriptor.Text

/-- A line of a dump. -/
def line (s : String) : String := s ++ "\r\n"

/-- A value that may be absent. -/
def orNone (s : Option String) : String := s.getD "None"

end SecurityDescriptor.Text
