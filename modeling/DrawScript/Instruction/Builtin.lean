import DrawScript.Instruction.Registry

/-!
The built-in instructions.
-/

namespace DrawScript.Builtin

def unaryAll (name : String) (broadcast : Broadcast) : Signature :=
  ⟨name, broadcast, ElementType.all.map fun t => ⟨[t], some t⟩⟩

def binaryAll (name : String) (broadcast : Broadcast) : Signature :=
  ⟨name, broadcast, ElementType.all.map fun t => ⟨[t, t], some t⟩⟩

def unaryNum (name : String) : Signature := ⟨name, .elements, [⟨[.num], some .num⟩]⟩

def binaryNum (name : String) : Signature := ⟨name, .elements, [⟨[.num, .num], some .num⟩]⟩

def arithmetic : List Signature :=
  [binaryAll "add" .elements,
   binaryAll "sub" .elements,
   ⟨"mul", .elements,
     [⟨[.num, .num], some .num⟩, ⟨[.num, .vec2], some .vec2⟩, ⟨[.vec2, .num], some .vec2⟩,
      ⟨[.num, .vec3], some .vec3⟩, ⟨[.vec3, .num], some .vec3⟩, ⟨[.vec2, .vec2], some .vec2⟩,
      ⟨[.vec3, .vec3], some .vec3⟩]⟩,
   ⟨"div", .elements,
     [⟨[.num, .num], some .num⟩, ⟨[.vec2, .num], some .vec2⟩, ⟨[.vec3, .num], some .vec3⟩,
      ⟨[.vec2, .vec2], some .vec2⟩, ⟨[.vec3, .vec3], some .vec3⟩]⟩,
   binaryNum "mod",
   binaryNum "pow",
   unaryAll "neg" .elements,
   unaryAll "abs" .elements,
   unaryAll "sqrt" .elements,
   unaryAll "floor" .elements,
   unaryAll "ceil" .elements,
   unaryAll "mov" .elements]

def comparison : List Signature :=
  [binaryNum "lt",
   binaryNum "gt",
   binaryNum "ne",
   binaryNum "or",
   binaryNum "xor",
   unaryNum "not",
   ⟨"select", .elements,
     [⟨[.num, .num, .num], some .num⟩, ⟨[.num, .vec2, .vec2], some .vec2⟩,
      ⟨[.num, .vec3, .vec3], some .vec3⟩]⟩]

def geometry : List Signature :=
  [⟨"dot", .elements, [⟨[.vec2, .vec2], some .num⟩, ⟨[.vec3, .vec3], some .num⟩]⟩,
   ⟨"cross", .elements, [⟨[.vec3, .vec3], some .vec3⟩]⟩,
   ⟨"length", .elements, [⟨[.vec2], some .num⟩, ⟨[.vec3], some .num⟩]⟩,
   ⟨"normalize", .elements, [⟨[.vec2], some .vec2⟩, ⟨[.vec3], some .vec3⟩]⟩,
   ⟨"vec2", .elements, [⟨[.num, .num], some .vec2⟩]⟩,
   ⟨"vec3", .elements, [⟨[.num, .num, .num], some .vec3⟩]⟩,
   ⟨"getx", .elements, [⟨[.vec2], some .num⟩, ⟨[.vec3], some .num⟩]⟩,
   ⟨"gety", .elements, [⟨[.vec2], some .num⟩, ⟨[.vec3], some .num⟩]⟩,
   ⟨"getz", .elements, [⟨[.vec3], some .num⟩]⟩]

def reductions : List Signature :=
  [unaryAll "total" .reduce,
   ⟨"count", .reduce, ElementType.all.map fun t => ⟨[t], some .num⟩⟩,
   binaryAll "min" .reduce,
   binaryAll "max" .reduce]

def control : List Signature :=
  [⟨"call", .none, [⟨[], none⟩]⟩,
   ⟨"ret", .none, [⟨[], none⟩, ⟨[.num], none⟩, ⟨[.vec2], none⟩, ⟨[.vec3], none⟩]⟩]

def functions : List Signature :=
  ["sin", "cos", "tan", "asin", "acos", "atan", "exp", "log"].map unaryNum

def signatures : List Signature :=
  arithmetic ++ comparison ++ geometry ++ reductions ++ control ++ functions

def registry : Registry := Registry.ofList signatures

end DrawScript.Builtin
