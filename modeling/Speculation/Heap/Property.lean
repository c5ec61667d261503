import Speculation.Heap.Convert

/-!
# Layout of named properties

Adding a property to an object moves it along a transition of its shape, which is followed if it
is known and created otherwise. An object whose properties were normalized keeps its data
properties in a dictionary, and only its accessors in its shape. None of this allocates objects
or can fail.
-/

namespace Speculation

namespace Heap

/-- A new shape with the layout of another one. -/
def deriveShape (h : Heap) (s : ShapeId) : ShapeId × Heap := h.addShape (h.shape s).derive

/-- A new shape with a changed layout. -/
def deriveShapeWith (h : Heap) (s : ShapeId) (f : Shape → Shape) : ShapeId × Heap :=
  h.addShape (f (h.shape s).derive)

/-- The shape reached by appending a descriptor. The transition for a name is recorded the first
time; a different descriptor of the same name gets a shape of its own. -/
def transitionTarget (h : Heap) (s : ShapeId) (d : Descriptor) : ShapeId × Heap :=
  match (h.shape s).transitions.get? d.name with
  | some target =>
    if (h.shape target).lastAdded? = some d then (target, h)
    else h.deriveShapeWith s fun t => { t with descriptors := t.descriptors ++ [d] }
  | none =>
    let (target, h) := h.deriveShapeWith s fun t => { t with descriptors := t.descriptors ++ [d] }
    (target, h.modifyShape s fun t => { t with transitions := t.transitions.insert d.name target })

/-- The shape reached by changing the elements kind. -/
def elementsTransition (h : Heap) (s : ShapeId) (kind : ElementsKind) : ShapeId × Heap :=
  if (h.shape s).elementsKind = kind then (s, h)
  else
    match (h.shape s).elementsTransitions.get? kind with
    | some target => (target, h)
    | none =>
      let (target, h) := h.deriveShapeWith s fun t => { t with elementsKind := kind }
      (target,
        h.modifyShape s fun t =>
          { t with elementsTransitions := t.elementsTransitions.insert kind target })

/-! ### Writing what is there -/

def setField (h : Heap) (id : ObjectId) (index : Nat) (v : Value) : Heap :=
  h.modifyObject id fun o => { o with fields := o.fields.set index v }

/-- Changes the value of a dictionary entry that exists. -/
def setDictionaryValue (h : Heap) (id : ObjectId) (name : Name) (v : Value) : Heap :=
  h.modifyObject id fun o =>
    match o.dictionary.get? name with
    | some e => { o with dictionary := o.dictionary.insert name { e with value := v } }
    | none => o

/-- Writes a dictionary entry. -/
def putEntry (h : Heap) (id : ObjectId) (name : Name) (e : DictionaryEntry) : Heap :=
  h.modifyObject id fun o => { o with dictionary := o.dictionary.insert name e }

/-- Moves an object to another shape. -/
def setShape (h : Heap) (id : ObjectId) (s : ShapeId) : Heap :=
  h.modifyObject id fun o => { o with shape := s }

/-! ### Adding properties -/

/-- Adds a data property, as a field or as a dictionary entry. -/
def addProperty (h : Heap) (id : ObjectId) (name : Name) (v : Value) (a : Attributes) : Heap :=
  match h.object? id with
  | none => h
  | some o =>
    let shape := h.shapeOf o
    if shape.isDictionary then h.putEntry id name ⟨v, a⟩
    else
      let (target, h) := h.transitionTarget o.shape ⟨name, .field shape.fieldCount, a⟩
      h.modifyObject id fun o => { o with shape := target, fields := o.fields ++ [v] }

/-- Adds a property whose value is fixed in the shape. -/
def addConstant (h : Heap) (id : ObjectId) (name : Name) (v : Value) (a : Attributes) : Heap :=
  match h.object? id with
  | none => h
  | some o =>
    if (h.shapeOf o).isDictionary then h.addProperty id name v a
    else
      let (target, h) := h.transitionTarget o.shape ⟨name, .constant v, a⟩
      h.setShape id target

/-- Adds an accessor pair; either side may be `undefined`. -/
def addAccessor (h : Heap) (id : ObjectId) (name : Name) (getter setter : Value) : Heap :=
  match h.object? id with
  | none => h
  | some o =>
    let (target, h) :=
      h.transitionTarget o.shape ⟨name, .accessor getter setter, { dontEnum := true }⟩
    h.setShape id target

/-- Turns a constant into a field that holds a new value. -/
def constantToField (h : Heap) (id : ObjectId) (name : Name) (v : Value) : Heap :=
  match h.object? id with
  | none => h
  | some o =>
    let index := (h.shapeOf o).fieldCount
    let (target, h) := h.deriveShapeWith o.shape fun t =>
      { t with descriptors := t.descriptors.map fun d =>
          if d.name = name then { d with kind := .field index } else d }
    h.modifyObject id fun o => { o with shape := target, fields := o.fields ++ [v] }

/-- Installs an interceptor that answers with given values. -/
def setInterceptor (h : Heap) (id : ObjectId) (values : Table Name Value) : Heap :=
  match h.object? id with
  | none => h
  | some o =>
    let (target, h) := h.deriveShapeWith o.shape fun t => { t with hasInterceptor := true }
    h.modifyObject id fun o => { o with shape := target, interceptor := values }

/-- Makes an object that is no function callable. -/
def setCallHandler (h : Heap) (id handler : ObjectId) : Heap :=
  h.modifyObject id fun o => { o with callHandler := some handler }

/-- Defines or overwrites a property of the global object. -/
def setGlobal (h : Heap) (name : Name) (v : Value) (a : Attributes) : Heap :=
  h.putEntry globalObject name ⟨v, a⟩

/-! ### Dictionary mode -/

/-- The dictionary entry that a data descriptor turns into. -/
def entryOf? (fields : List Value) (d : Descriptor) : Option (Name × DictionaryEntry) :=
  match d.kind with
  | .field i => some (d.name, ⟨fields.getD i .undefined, d.attributes⟩)
  | .constant v => some (d.name, ⟨v, d.attributes⟩)
  | .normal | .accessor _ _ => none

/-- Moves the data properties of an object into its dictionary. -/
def normalize (h : Heap) (id : ObjectId) : Heap :=
  match h.object? id with
  | none => h
  | some o =>
    let shape := h.shapeOf o
    if shape.isDictionary then h
    else
      let (target, h) := h.deriveShapeWith o.shape fun t =>
        { t with
          isDictionary := true
          descriptors := t.descriptors.filter fun d => d.kind.isAccessor }
      h.modifyObject id fun o =>
        { o with
          shape := target
          fields := []
          dictionary := (shape.descriptors.filterMap (entryOf? o.fields)).foldl
            (fun t e => t.insert e.1 e.2) o.dictionary }

/-- Deletes an own data property; tells whether the property is gone. -/
def delete (h : Heap) (id : ObjectId) (name : Name) : Bool × Heap :=
  let id := h.resolveProxy id
  match h.ownReal id name with
  | .notFound => (true, h)
  | _ =>
    let h := h.normalize id
    match h.object? id with
    | none => (false, h)
    | some o =>
      match o.dictionary.get? name with
      | some e =>
        if e.attributes.dontDelete then (false, h)
        else (true, h.modifyObject id fun o => { o with dictionary := o.dictionary.erase name })
      | none => (true, h)

end Heap

end Speculation
