/-! Where rendered text goes. -/

namespace Stencil

/-- Takes texts one by one into a state; tells whether a text was taken whole. -/
structure Sink (σ : Type) where
  write : String → σ → Bool × σ

namespace Sink

def text : Sink String := ⟨fun piece written => (true, written ++ piece)⟩

def pieces : Sink (List String) := ⟨fun piece written => (true, written ++ [piece])⟩

end Sink

end Stencil
