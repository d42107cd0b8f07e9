/-
# SchemaAssist.Version — the version of the program
-/

namespace SchemaAssist

set_option autoImplicit false

def version : String := "0.1.0"

end SchemaAssist
