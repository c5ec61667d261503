import Speculation.Cache.Access
import Speculation.Engine.Execution
import Speculation.Recipe.Buffer
import Speculation.Tool.Arguments

/-!
# Scenarios

Small programs that show how sites and frames change. Each prints what it sees.
-/

namespace Speculation.Tool

/-- An engine and the lines printed so far. -/
structure Show where
  engine : Engine
  lines : List String := []
deriving Inhabited

namespace Show

/-- Steps of a scenario. -/
abbrev Step := ExceptT Fault (StateM Show)

def print (line : String) : Step Unit := modify fun s => { s with lines := s.lines ++ [line] }

/-- Performs an operation of the engine. -/
def act {α : Type} (a : Engine.Action α) : Step α := fun s =>
  let (r, e) := a s.engine
  (r, { s with engine := e })

/-- Performs an operation of the engine that cannot fail. -/
def run {α : Type} (f : Engine → α × Engine) : Step α := act fun e =>
  let (a, e) := f e
  (.ok a, e)

def onHeap {α : Type} (a : Heap.Action α) : Step α := act (Engine.onHeap a)

def heap : Step Heap := return (← get).engine.heap

/-- Performs an operation at a site; the result has the site after it. -/
def visit {α : Type} (site : Site) (a : AtSite.Action α) : Step (α × Site) := fun s =>
  let (r, t) := a { site, engine := s.engine }
  (r.map (·, t.site), { s with engine := t.engine })

end Show

open Show

/-- Text filled up with blanks on the right. -/
def padRight (width : Nat) (s : String) : String := s.pushn ' ' (width - s.length)

/-- Text filled up with blanks on the left. -/
def padLeft (width : Nat) (s : String) : String := "".pushn ' ' (width - s.length) ++ s

/-! ### Sites -/

/-- Loads a property of several objects at one site. -/
def showLoads (name : Name) : Site → List ObjectId → Step Unit
  | _, [] => return
  | site, id :: rest => do
    let (v, site) ← visit site (AtSite.load (.object id) name)
    print s!"  o.x = {v.display} site: {site.state.name}"
    showLoads name site rest

/-- A named load that goes monomorphic, then megamorphic. -/
def showNamedLoad : Step Unit := do
  let x : Name := ⟨"x"⟩
  let y : Name := ⟨"y"⟩
  let first ← onHeap do
    modify fun h => (h.intern x).intern y
    let first ← Heap.newObject
    modify fun h => h.addProperty first x (.smi 1) {}
    return first
  let second ← onHeap do
    let second ← Heap.newObject
    modify fun h => (h.addProperty second y (.smi 0) {}).addProperty second x (.smi 2) {}
    return second
  let site ← run fun e => e.newSite .load {}
  print s!"load site: {site.state.name}"
  showLoads x site [first, first, second, first]
  let cache := (← get).engine.stubCache
  print s!"stub cache: {cache.size} entries, {cache.hits} hits, {cache.misses} misses"

/-- The elements kind of an array. -/
def elementsText (h : Heap) (array : Value) : String :=
  match h.elementsKind? array with
  | some kind => s!"elements {kind.label}"
  | none => "no elements"

/-- Stores several elements of an array at one site. -/
def showStores (array : Value) : Site → List (Nat × Value) → Step Unit
  | _, [] => return
  | site, (i, v) :: rest => do
    let (_, site) ← visit site (AtSite.keyedStore array (.smi i) v)
    let h ← heap
    print (s!"  a[{i}] = {padRight 10 (h.describe v)} site: {padRight 12 site.state.name} "
      ++ elementsText h array)
    showStores array site rest

/-- A keyed store that widens the elements kind of an array. -/
def showKeyedStore : Step Unit := do
  let array := Value.object (← onHeap (Heap.newArray [.smi 1, .smi 2, .smi 3]))
  let site ← run fun e => e.newSite .keyedStore {}
  let half ← onHeap (Heap.newNumber (Double.ofRatio false 3 2))
  let text ← onHeap (Heap.newString "three")
  print ("array: " ++ elementsText (← heap) array)
  showStores array site [(0, .smi 7), (1, .smi 8), (1, half), (2, text), (5, .smi 9)]

/-! ### Frames -/

/-- A function whose unoptimized code resumes at one node. -/
def newResumable (name : String) (node : NodeId) (offset : Nat) : Step (Value × SharedId) := do
  let shared ← onHeap (Heap.newShared name 1 none)
  let (id, _) ← act (Engine.compileBaseline shared 64 ⟨[(node, ⟨offset, .noRegisters⟩)]⟩)
  return (.object id, shared)

/-- Makes a function run optimized code with one bailout point. -/
def optimize (function : Value) (shared : SharedId) (size pc : Nat) (node : NodeId)
    (osr : Option NodeId) (commands : List Command) : Step CodeId := do
  let data : BailoutData :=
    { recipes := (({} : Recipe.Buffer).addRecipe 1 1 commands).bytes
      entries := [{ node, recipe := 0, argumentsHeight := 0, pc }]
      literals := [function]
      osrNode := osr }
  let code ← run fun e => e.addCode (.optimized shared size 1 data)
  match function.objectId? with
  | some id =>
    let _ ← run fun e => e.installCode id code
    return code
  | none => return code

/-- A frame of a function with one parameter, called from outside. -/
def newFrame (type : FrameType) (function parameter : Value) (words : List Word) :
    Except Fault Frame :=
  let f := Frame.ofFunction type function 1 words.length
  let f := f.link 0 Stack.base (.tagged .undefined) (.tagged function)
  ((f.setReceiver (.tagged .undefined)).setParameters [.tagged parameter]).setExpressions words

/-- Pushes a frame. -/
def pushFrame (f : Frame) : Step Unit := act do
  let e ← get
  set { e with stack := ← e.stack.push f }

/-- The lines that show the words of a frame, from the highest address down. -/
def frameLines (h : Heap) (i : Nat) (f : Frame) : List String :=
  let shown (w : Word) : String :=
    match w with
    | .tagged v => h.describe v
    | w => w.display
  (s!"  #{i} {f.type.name} frame {hexText f.top}..{hexText (f.top + f.size)} "
    ++ s!"pc={hexText f.pc}") ::
  (f.words.zipIdx.reverse.map fun p =>
    s!"      [top + {padLeft 2 (toString p.2)}] {shown p.1}")

/-- Prints the stack, outermost frame first. -/
def printStack : Step Unit := do
  let e := (← get).engine
  (e.stack.toList.zipIdx.flatMap fun p => frameLines e.heap p.2 p.1).forM print

/-- An eager bailout of an optimized frame. -/
def showBailout : Step Unit := do
  let node : NodeId := ⟨3⟩
  let (function, shared) ← newResumable "add" node 20
  let code ← optimize function shared 48 12 node none
    [.jsFrame node 0 2, .stackSlot (-2), .stackSlot (-1), .stackSlot 0, .doubleRegister 1]
  let f ← newFrame .optimized function (.smi 1) [.tagged (.smi 41)]
  let registers ← f.registers.setDouble 1 (Double.ofRatio false 1 2)
  let pc := ((← get).engine.codeSpace.get code).address 12
  pushFrame { f with registers, pc }
  let r ← act (Engine.deoptimize { reason := .eager, function := some function })
  print s!"resuming {r.frames.length} frame(s) at pc {hexText r.pc} ({r.state.name})"
  printStack

/-- Tries to enter optimized code with a counter. -/
def tryReplacement (function counter : Value) : Step Unit := do
  let sum ← onHeap (Heap.newNumber (Double.ofRatio false 5 4))
  pushFrame (← newFrame .javaScript function (.smi 10) [.tagged counter, .tagged sum])
  print s!"entering optimized code with counter {(← heap).describe counter}"
  let attempt : Step Unit := do
    let r ← act (Engine.replaceOnStack function)
    print s!"  replaced, resuming at pc {hexText r.pc}"
    printStack
  tryCatch attempt fun
    | .osrAborted slot why => print s!"  stayed interpreted: {why.message slot}"
    | fault => throw fault
  act (modify fun e => { e with stack := e.stack.pop.2 })

/-- On-stack replacement, once accepted and once abandoned. -/
def showReplacement : Step Unit := do
  let node : NodeId := ⟨5⟩
  let (function, shared) ← newResumable "loop" node 30
  let _ ← optimize function shared 32 8 node (some node)
    [.jsFrame node 0 2, .stackSlot (-2), .stackSlot (-1), .int32StackSlot 0, .doubleRegister 0]
  let counter ← onHeap (Heap.newNumber (Double.ofRatio false 5 2))
  tryReplacement function (.smi 3)
  tryReplacement function counter

/-- Shows a scenario. -/
def Scenario.play : Scenario → Step Unit
  | namedLoad => showNamedLoad
  | keyedStore => showKeyedStore
  | bailout => showBailout
  | replacement => showReplacement

end Speculation.Tool
