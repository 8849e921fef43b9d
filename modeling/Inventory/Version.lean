/-! # The version of the program -/

namespace Inventory

def version : String := "0.1.0"

end Inventory
