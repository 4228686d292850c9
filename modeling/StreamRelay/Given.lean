namespace StreamRelay

inductive Given (α : Type) where
  | nothing
  | value (a : α)
  deriving DecidableEq, Repr

namespace Given
variable {α : Type}

instance : Coe α (Given α) := ⟨value⟩

def shown (write : α → String) : Given α → String
  | nothing => "[]"
  | value a => write a

def text (g : Given String) : String := g.shown id

def number (g : Given Int) : String := g.shown toString

end Given
end StreamRelay
