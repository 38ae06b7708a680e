/-
  HTML as text: writing a tree of elements, and reading it back one character at a time.

  Texts and attribute values are escaped when they are written (`escape`); the reader knows the
  five references that `escape` writes and nothing else that begins with an ampersand, and it wants
  every element closed by its own name.

  1. **Writing** (`render`) — a node, and a row of nodes.
  2. **Reading** (`parse`) — a machine that takes one character at a time; it keeps the elements it
     is inside of and what it has read of the innermost.
  3. **Normal form** (`normal`) — texts side by side are one text and an empty text is none, which
     is all that is lost: `parse (render nodes) = some (normal nodes)` (`parse_render`).
  4. **Outline** (`outline`) — the elements and the names of their attributes, without any text; it
     does not depend on the texts, and so no text that was written can be read as an element.
-/
import Vad.Lib.Text

namespace Html

open PyText (Text)

/-! ## Writing -/

inductive Node where
  | text (t : Text)
  | element (tag : Text) (attrs : List (Text × Text)) (children : List Node)

/-- One character of `html.escape`. -/
def escapeChar (c : Char) : Text :=
  if c = '&' then "&amp;".toList
  else if c = '<' then "&lt;".toList
  else if c = '>' then "&gt;".toList
  else if c = '"' then "&quot;".toList
  else if c = '\'' then "&#x27;".toList
  else [c]

/-- `html.escape`, quotes included. -/
def escape (t : Text) : Text := t.flatMap escapeChar

@[simp] theorem escape_nil : escape [] = [] := rfl

theorem escape_cons (c : Char) (t : Text) : escape (c :: t) = escapeChar c ++ escape t := rfl

@[simp] theorem escape_append (t u : Text) : escape (t ++ u) = escape t ++ escape u :=
  List.flatMap_append

def renderAttrs : List (Text × Text) → Text
  | [] => []
  | (name, value) :: attrs =>
    ' ' :: (name ++ '=' :: '"' :: (escape value ++ '"' :: renderAttrs attrs))

mutual

def Node.render : Node → Text
  | .text t => escape t
  | .element tag attrs children =>
    '<' :: (tag ++ (renderAttrs attrs ++ '>' :: (render children ++ '<' :: '/' :: (tag ++ ['>']))))

def render : List Node → Text
  | [] => []
  | node :: nodes => node.render ++ render nodes

end

theorem render_nil : render [] = [] := rfl

theorem render_cons (node : Node) (nodes : List Node) :
    render (node :: nodes) = node.render ++ render nodes := rfl

theorem render_append (nodes more : List Node) :
    render (nodes ++ more) = render nodes ++ render more := by
  induction nodes with
  | nil => rfl
  | cons node nodes ih => simp only [List.cons_append, render, ih, List.append_assoc]

/-! ## Reading -/

/-- The characters of a name. -/
def isNameChar (c : Char) : Bool := c.isAlphanum || c == '-'

/-- The reference between `&` and `;`. -/
def reference : Text → Option Char
  | ['a', 'm', 'p'] => some '&'
  | ['l', 't'] => some '<'
  | ['g', 't'] => some '>'
  | ['q', 'u', 'o', 't'] => some '"'
  | ['#', 'x', '2', '7'] => some '\''
  | _ => none

/-- Where the reader is. -/
inductive Mode where
  | content (t : Text)
  | contentRef (t ref : Text)
  | opening
  | openName (tag : Text)
  | attrName (tag : Text) (attrs : List (Text × Text)) (name : Text)
  | attrEq (tag : Text) (attrs : List (Text × Text)) (name : Text)
  | attrValue (tag : Text) (attrs : List (Text × Text)) (name value : Text)
  | attrRef (tag : Text) (attrs : List (Text × Text)) (name value ref : Text)
  | attrEnd (tag : Text) (attrs : List (Text × Text))
  | closeName (tag : Text)

/-- An element that is open, with what stands before it in the element around it. -/
structure Frame where
  before : List Node
  tag : Text
  attrs : List (Text × Text)

structure State where
  stack : List Frame
  nodes : List Node
  mode : Mode

/-- The text read since the last tag becomes a node, if there is any. -/
def flush (nodes : List Node) (t : Text) : List Node :=
  if t = [] then nodes else nodes ++ [.text t]

/-- `>` ends an opening tag. -/
def State.enter (s : State) (tag : Text) (attrs : List (Text × Text)) : State :=
  ⟨⟨s.nodes, tag, attrs⟩ :: s.stack, [], .content []⟩

/-- `>` ends a closing tag. -/
def State.leave (s : State) (tag : Text) : Option State :=
  match s.stack with
  | [] => none
  | frame :: stack =>
    if frame.tag = tag then
      some ⟨stack, frame.before ++ [.element frame.tag frame.attrs s.nodes], .content []⟩
    else none

def State.read (s : State) (c : Char) : Option State :=
  match s.mode with
  | .content t =>
    if c = '<' then some ⟨s.stack, flush s.nodes t, .opening⟩
    else if c = '&' then some { s with mode := .contentRef t [] }
    else some { s with mode := .content (t ++ [c]) }
  | .contentRef t ref =>
    if c = ';' then (reference ref).map fun d => { s with mode := .content (t ++ [d]) }
    else some { s with mode := .contentRef t (ref ++ [c]) }
  | .opening =>
    if c = '/' then some { s with mode := .closeName [] }
    else if isNameChar c then some { s with mode := .openName [c] }
    else none
  | .openName tag =>
    if c = '>' then some (s.enter tag [])
    else if c = ' ' then some { s with mode := .attrName tag [] [] }
    else if isNameChar c then some { s with mode := .openName (tag ++ [c]) }
    else none
  | .attrName tag attrs name =>
    if c = '=' then if name = [] then none else some { s with mode := .attrEq tag attrs name }
    else if isNameChar c then some { s with mode := .attrName tag attrs (name ++ [c]) }
    else none
  | .attrEq tag attrs name =>
    if c = '"' then some { s with mode := .attrValue tag attrs name [] } else none
  | .attrValue tag attrs name value =>
    if c = '"' then some { s with mode := .attrEnd tag (attrs ++ [(name, value)]) }
    else if c = '&' then some { s with mode := .attrRef tag attrs name value [] }
    else some { s with mode := .attrValue tag attrs name (value ++ [c]) }
  | .attrRef tag attrs name value ref =>
    if c = ';' then
      (reference ref).map fun d => { s with mode := .attrValue tag attrs name (value ++ [d]) }
    else some { s with mode := .attrRef tag attrs name value (ref ++ [c]) }
  | .attrEnd tag attrs =>
    if c = '>' then some (s.enter tag attrs)
    else if c = ' ' then some { s with mode := .attrName tag attrs [] }
    else none
  | .closeName tag =>
    if c = '>' then s.leave tag
    else if isNameChar c then some { s with mode := .closeName (tag ++ [c]) }
    else none

/-- The reader goes on over a text. -/
def State.feed (s : State) (t : Text) : Option State := t.foldlM State.read s

/-- At the end every element is closed. -/
def State.finish (s : State) : Option (List Node) :=
  match s.stack, s.mode with
  | [], .content t => some (flush s.nodes t)
  | _, _ => none

/-- The nodes that a text stands for, if every element in it is closed. -/
def parse (t : Text) : Option (List Node) := (State.feed ⟨[], [], .content []⟩ t).bind State.finish

/-! ## Normal form -/

/-- The innermost element as it has been read so far: its nodes, and the text after them. -/
abbrev Content := List Node × Text

mutual

def Node.addTo : Node → Content → Content
  | .text u, r => (r.1, r.2 ++ u)
  | .element tag attrs children, r =>
    let inside := addAll children ([], [])
    (flush r.1 r.2 ++ [.element tag attrs (flush inside.1 inside.2)], [])

def addAll : List Node → Content → Content
  | [], r => r
  | node :: nodes, r => addAll nodes (node.addTo r)

end

/-- Texts side by side are one text, and an empty text is none. -/
def normal (nodes : List Node) : List Node :=
  let r := addAll nodes ([], [])
  flush r.1 r.2

theorem addAll_append (nodes more : List Node) (r : Content) :
    addAll (nodes ++ more) r = addAll more (addAll nodes r) := by
  induction nodes generalizing r with
  | nil => rfl
  | cons node nodes ih => exact ih _

/-! ## Names -/

def isName (t : Text) : Bool := !t.isEmpty && t.all isNameChar

mutual

/-- The tags and the names of attributes are names. -/
def Node.named : Node → Bool
  | .text _ => true
  | .element tag attrs children => isName tag && attrs.all (fun a => isName a.1) && named children

def named : List Node → Bool
  | [] => true
  | node :: nodes => node.named && named nodes

end

@[simp] theorem named_append (nodes more : List Node) :
    named (nodes ++ more) = (named nodes && named more) := by
  induction nodes with
  | nil => rw [List.nil_append, named, Bool.true_and]
  | cons node nodes ih => rw [List.cons_append, named, named, ih, Bool.and_assoc]

/-! ## The reader goes over what was written -/

theorem State.feed_nil (s : State) : s.feed [] = some s := rfl

theorem State.feed_cons (s : State) (c : Char) (t : Text) :
    s.feed (c :: t) = (s.read c).bind fun s' => s'.feed t := List.foldlM_cons ..

theorem State.feed_append (s : State) (t u : Text) :
    s.feed (t ++ u) = (s.feed t).bind fun s' => s'.feed u := List.foldlM_append ..

/-- Characters that the reader collects one by one. -/
theorem State.feed_collected (place : Text → State) (good : Char → Bool)
    (h : ∀ t c, good c = true → (place t).read c = some (place (t ++ [c]))) (u : Text)
    (hu : ∀ c ∈ u, good c = true) (t : Text) : (place t).feed u = some (place (t ++ u)) := by
  induction u generalizing t with
  | nil => rw [List.append_nil, State.feed_nil]
  | cons c u ih =>
    have hrest := ih (fun x hx => hu x (List.mem_cons_of_mem c hx)) (t ++ [c])
    rw [State.feed_cons, h t c (hu c (List.mem_cons_self ..)), Option.bind_some, hrest,
      List.append_assoc]
    rfl

/-- The two places where references are resolved: in a text, and in the value of an attribute. -/
structure Resolves (plain : Text → State) (inRef : Text → Text → State) : Prop where
  begins : ∀ t, (plain t).read '&' = some (inRef t [])
  collects : ∀ t ref c, c ≠ ';' → (inRef t ref).read c = some (inRef t (ref ++ [c]))
  ends : ∀ t ref, (inRef t ref).read ';' = (reference ref).map fun d => plain (t ++ [d])
  passes : ∀ t c, c ≠ '&' → c ≠ '<' → c ≠ '"' → (plain t).read c = some (plain (t ++ [c]))

theorem Resolves.feed_reference {plain : Text → State} {inRef : Text → Text → State}
    (h : Resolves plain inRef) (ref : Text) {d : Char} (hsemi : ∀ c ∈ ref, (c != ';') = true)
    (hd : reference ref = some d) (t : Text) :
    (plain t).feed ('&' :: (ref ++ [';'])) = some (plain (t ++ [d])) := by
  have hcollect := State.feed_collected (fun r => inRef t r) (fun c => c != ';')
    (fun r c hc => h.collects t r c (by simpa using hc)) ref hsemi []
  rw [State.feed_cons, h.begins, Option.bind_some, State.feed_append, hcollect, Option.bind_some,
    State.feed_cons, List.nil_append, h.ends, hd]
  rfl

theorem Resolves.feed_escapeChar {plain : Text → State} {inRef : Text → Text → State}
    (h : Resolves plain inRef) (t : Text) (c : Char) :
    (plain t).feed (escapeChar c) = some (plain (t ++ [c])) := by
  unfold escapeChar
  split
  · next hc => exact hc ▸ h.feed_reference ['a', 'm', 'p'] (by decide) rfl t
  split
  · next hc => exact hc ▸ h.feed_reference ['l', 't'] (by decide) rfl t
  split
  · next hc => exact hc ▸ h.feed_reference ['g', 't'] (by decide) rfl t
  split
  · next hc => exact hc ▸ h.feed_reference ['q', 'u', 'o', 't'] (by decide) rfl t
  split
  · next hc => exact hc ▸ h.feed_reference ['#', 'x', '2', '7'] (by decide) rfl t
  · next hamp hlt _ hquot _ =>
    rw [State.feed_cons, h.passes t c hamp hlt hquot]
    rfl

/-- What was escaped is read as it was. -/
theorem Resolves.feed_escape {plain : Text → State} {inRef : Text → Text → State}
    (h : Resolves plain inRef) (u t : Text) :
    (plain t).feed (escape u) = some (plain (t ++ u)) := by
  induction u generalizing t with
  | nil => rw [escape_nil, List.append_nil, State.feed_nil]
  | cons c u ih =>
    show (plain t).feed (escapeChar c ++ escape u) = _
    rw [State.feed_append, h.feed_escapeChar, Option.bind_some, ih, List.append_assoc]
    rfl

theorem resolves_content (stack : List Frame) (nodes : List Node) :
    Resolves (fun t => ⟨stack, nodes, .content t⟩) (fun t r => ⟨stack, nodes, .contentRef t r⟩) where
  begins _ := rfl
  collects _ _ _ hc := if_neg hc
  ends t ref := by simp [State.read]
  passes t c hamp hlt _ := by
    show (if c = '<' then _ else if c = '&' then _ else _) = _
    rw [if_neg hlt, if_neg hamp]

theorem resolves_attrValue (stack : List Frame) (nodes : List Node) (tag : Text)
    (attrs : List (Text × Text)) (name : Text) :
    Resolves (fun t => ⟨stack, nodes, .attrValue tag attrs name t⟩)
      (fun t r => ⟨stack, nodes, .attrRef tag attrs name t r⟩) where
  begins _ := rfl
  collects _ _ _ hc := if_neg hc
  ends t ref := by simp [State.read]
  passes t c hamp _ hquot := by
    show (if c = '"' then _ else if c = '&' then _ else _) = _
    rw [if_neg hquot, if_neg hamp]

theorem isNameChar_ne {c d : Char} (hc : isNameChar c = true) (hd : isNameChar d = false) :
    c ≠ d := by
  rintro rfl
  rw [hc] at hd
  cases hd

theorem isName_iff {t : Text} : isName t = true ↔ t ≠ [] ∧ ∀ c ∈ t, isNameChar c = true := by
  simp [isName]

section Tags

variable {stack : List Frame} {nodes : List Node}

theorem feed_openName {tag : Text} (htag : isName tag = true) (t : Text) :
    State.feed ⟨stack, nodes, .content t⟩ ('<' :: tag) =
      some ⟨stack, flush nodes t, .openName tag⟩ := by
  obtain ⟨hne, hchars⟩ := isName_iff.mp htag
  obtain ⟨c, rest, rfl⟩ := List.exists_cons_of_ne_nil hne
  have hc := hchars c (List.mem_cons_self ..)
  have hfirst : State.read ⟨stack, flush nodes t, .opening⟩ c =
      some ⟨stack, flush nodes t, .openName [c]⟩ := by
    show (if c = '/' then _ else if isNameChar c = true then _ else _) = _
    rw [if_neg (isNameChar_ne hc (by decide)), if_pos hc]
  have hrest := State.feed_collected (fun n => ⟨stack, flush nodes t, .openName n⟩) isNameChar
    (fun n d hd => by
      show (if d = '>' then _ else if d = ' ' then _ else if isNameChar d = true then _ else _) = _
      rw [if_neg (isNameChar_ne hd (by decide)), if_neg (isNameChar_ne hd (by decide)), if_pos hd])
    rest (fun x hx => hchars x (List.mem_cons_of_mem c hx)) [c]
  have hopen : State.read ⟨stack, nodes, .content t⟩ '<' =
      some ⟨stack, flush nodes t, .opening⟩ := rfl
  rw [State.feed_cons, hopen, Option.bind_some, State.feed_cons, hfirst, Option.bind_some, hrest]
  rfl

/-- `name="value"` of an attribute. -/
theorem feed_attr {tag name : Text} (attrs : List (Text × Text)) (hname : isName name = true)
    (value : Text) :
    State.feed ⟨stack, nodes, .attrName tag attrs []⟩
        (name ++ '=' :: '"' :: (escape value ++ ['"'])) =
      some ⟨stack, nodes, .attrEnd tag (attrs ++ [(name, value)])⟩ := by
  obtain ⟨hne, hchars⟩ := isName_iff.mp hname
  have hcollect := State.feed_collected (fun n => ⟨stack, nodes, .attrName tag attrs n⟩) isNameChar
    (fun n d hd => by
      show (if d = '=' then _ else if isNameChar d = true then _ else _) = _
      rw [if_neg (isNameChar_ne hd (by decide)), if_pos hd]) name hchars []
  have heq : State.read ⟨stack, nodes, .attrName tag attrs name⟩ '=' =
      some ⟨stack, nodes, .attrEq tag attrs name⟩ := by
    simp [State.read, hne]
  have hquote : State.read ⟨stack, nodes, .attrEq tag attrs name⟩ '"' =
      some ⟨stack, nodes, .attrValue tag attrs name []⟩ := rfl
  have hend : State.feed ⟨stack, nodes, .attrValue tag attrs name value⟩ ['"'] =
      some ⟨stack, nodes, .attrEnd tag (attrs ++ [(name, value)])⟩ := rfl
  rw [State.feed_append, hcollect, Option.bind_some, List.nil_append, State.feed_cons, heq,
    Option.bind_some, State.feed_cons, hquote, Option.bind_some, State.feed_append,
    (resolves_attrValue stack nodes tag attrs name).feed_escape, Option.bind_some, List.nil_append,
    hend]

/-- Attributes, once there is one before them. -/
theorem feed_attrs {tag : Text} (more : List (Text × Text))
    (hmore : more.all (fun a => isName a.1) = true) (attrs : List (Text × Text)) :
    State.feed ⟨stack, nodes, .attrEnd tag attrs⟩ (renderAttrs more) =
      some ⟨stack, nodes, .attrEnd tag (attrs ++ more)⟩ := by
  induction more generalizing attrs with
  | nil => rw [renderAttrs, State.feed_nil, List.append_nil]
  | cons a more ih =>
    obtain ⟨name, value⟩ := a
    rw [List.all_cons, Bool.and_eq_true] at hmore
    have hsplit : renderAttrs ((name, value) :: more) =
        ' ' :: ((name ++ '=' :: '"' :: (escape value ++ ['"'])) ++ renderAttrs more) := by
      simp [renderAttrs]
    have hspace : State.read ⟨stack, nodes, .attrEnd tag attrs⟩ ' ' =
        some ⟨stack, nodes, .attrName tag attrs []⟩ := rfl
    rw [hsplit, State.feed_cons, hspace, Option.bind_some, State.feed_append,
      feed_attr attrs hmore.1, Option.bind_some, ih hmore.2, List.append_assoc]
    rfl

/-- A whole opening tag. -/
theorem feed_enter {tag : Text} (htag : isName tag = true) (attrs : List (Text × Text))
    (hattrs : attrs.all (fun a => isName a.1) = true) (t : Text) :
    State.feed ⟨stack, nodes, .content t⟩ ('<' :: (tag ++ (renderAttrs attrs ++ ['>']))) =
      some ⟨⟨flush nodes t, tag, attrs⟩ :: stack, [], .content []⟩ := by
  have hopen : State.feed ⟨stack, nodes, .content t⟩ ('<' :: tag) =
      some ⟨stack, flush nodes t, .openName tag⟩ := feed_openName htag t
  have hsplit : '<' :: (tag ++ (renderAttrs attrs ++ ['>'])) =
      ('<' :: tag) ++ (renderAttrs attrs ++ ['>']) := rfl
  rw [hsplit, State.feed_append, hopen, Option.bind_some]
  cases attrs with
  | nil => rfl
  | cons a more =>
    obtain ⟨name, value⟩ := a
    rw [List.all_cons, Bool.and_eq_true] at hattrs
    have hrest : renderAttrs ((name, value) :: more) ++ ['>'] =
        ' ' :: ((name ++ '=' :: '"' :: (escape value ++ ['"'])) ++ (renderAttrs more ++ ['>'])) := by
      simp [renderAttrs]
    have hspace : State.read ⟨stack, flush nodes t, .openName tag⟩ ' ' =
        some ⟨stack, flush nodes t, .attrName tag [] []⟩ := rfl
    have hend : State.feed ⟨stack, flush nodes t, .attrEnd tag ((name, value) :: more)⟩ ['>'] =
        some ⟨⟨flush nodes t, tag, (name, value) :: more⟩ :: stack, [], .content []⟩ := rfl
    rw [hrest, State.feed_cons, hspace, Option.bind_some, State.feed_append,
      feed_attr [] hattrs.1, Option.bind_some, State.feed_append, feed_attrs more hattrs.2,
      Option.bind_some]
    exact hend

/-- The closing tag of the innermost element. -/
theorem feed_leave {tag : Text} (htag : isName tag = true) (before : List Node)
    (attrs : List (Text × Text)) (t : Text) :
    State.feed ⟨⟨before, tag, attrs⟩ :: stack, nodes, .content t⟩ ('<' :: '/' :: (tag ++ ['>'])) =
      some ⟨stack, before ++ [.element tag attrs (flush nodes t)], .content []⟩ := by
  obtain ⟨-, hchars⟩ := isName_iff.mp htag
  have hcollect := State.feed_collected
    (fun n => ⟨⟨before, tag, attrs⟩ :: stack, flush nodes t, .closeName n⟩) isNameChar
    (fun n d hd => by
      show (if d = '>' then _ else if isNameChar d = true then _ else _) = _
      rw [if_neg (isNameChar_ne hd (by decide)), if_pos hd]) tag hchars []
  have hlt : State.read ⟨⟨before, tag, attrs⟩ :: stack, nodes, .content t⟩ '<' =
      some ⟨⟨before, tag, attrs⟩ :: stack, flush nodes t, .opening⟩ := rfl
  have hslash : State.read ⟨⟨before, tag, attrs⟩ :: stack, flush nodes t, .opening⟩ '/' =
      some ⟨⟨before, tag, attrs⟩ :: stack, flush nodes t, .closeName []⟩ := rfl
  have hend : State.read ⟨⟨before, tag, attrs⟩ :: stack, flush nodes t, .closeName tag⟩ '>' =
      some ⟨stack, before ++ [.element tag attrs (flush nodes t)], .content []⟩ :=
    if_pos rfl
  rw [State.feed_cons, hlt, Option.bind_some, State.feed_cons, hslash, Option.bind_some,
    State.feed_append, hcollect, Option.bind_some, State.feed_cons, List.nil_append, hend]
  rfl

end Tags

/-! ## What was written is read back -/

mutual

theorem Node.feed_render (node : Node) (h : node.named = true) (stack : List Frame) (r : Content) :
    State.feed ⟨stack, r.1, .content r.2⟩ node.render =
      some ⟨stack, (node.addTo r).1, .content (node.addTo r).2⟩ := by
  cases node with
  | text t => exact (resolves_content stack r.1).feed_escape t r.2
  | element tag attrs children =>
    rw [Node.named, Bool.and_eq_true, Bool.and_eq_true] at h
    obtain ⟨⟨htag, hattrs⟩, hchildren⟩ := h
    have hsplit : (Node.element tag attrs children).render =
        ('<' :: (tag ++ (renderAttrs attrs ++ ['>']))) ++
          (render children ++ ('<' :: '/' :: (tag ++ ['>']))) := by
      simp [Node.render]
    have hinside := feed_render children hchildren (⟨flush r.1 r.2, tag, attrs⟩ :: stack) ([], [])
    rw [hsplit, State.feed_append, feed_enter htag attrs hattrs, Option.bind_some,
      State.feed_append, hinside, Option.bind_some, feed_leave htag]
    rfl

theorem feed_render (nodes : List Node) (h : named nodes = true) (stack : List Frame)
    (r : Content) :
    State.feed ⟨stack, r.1, .content r.2⟩ (render nodes) =
      some ⟨stack, (addAll nodes r).1, .content (addAll nodes r).2⟩ := by
  cases nodes with
  | nil => rfl
  | cons node nodes =>
    rw [named, Bool.and_eq_true] at h
    rw [render, State.feed_append, Node.feed_render node h.1, Option.bind_some,
      feed_render nodes h.2, addAll]

end

/-- What was written is read back, in normal form. -/
theorem parse_render (nodes : List Node) (h : named nodes = true) :
    parse (render nodes) = some (normal nodes) := by
  show (State.feed _ (render nodes)).bind _ = _
  rw [feed_render nodes h [] ([], []), Option.bind_some]
  rfl

/-! ## Outlines -/

/-- An element without its texts. -/
inductive Outline where
  | element (tag : Text) (attrs : List Text) (children : List Outline)

mutual

def Node.outline : Node → List Outline
  | .text _ => []
  | .element tag attrs children => [.element tag (attrs.map Prod.fst) (outline children)]

/-- The elements and the names of their attributes. -/
def outline : List Node → List Outline
  | [] => []
  | node :: nodes => node.outline ++ outline nodes

end

@[simp] theorem outline_append (nodes more : List Node) :
    outline (nodes ++ more) = outline nodes ++ outline more := by
  induction nodes with
  | nil => rw [List.nil_append, outline, List.nil_append]
  | cons node nodes ih => rw [List.cons_append, outline, outline, ih, List.append_assoc]

theorem outline_flush (nodes : List Node) (t : Text) : outline (flush nodes t) = outline nodes := by
  unfold flush
  split
  · rfl
  · rw [outline_append]
    exact List.append_nil _

mutual

theorem Node.outline_addTo (node : Node) (r : Content) :
    outline (node.addTo r).1 = outline r.1 ++ node.outline := by
  cases node with
  | text t => exact (List.append_nil _).symm
  | element tag attrs children =>
    have hinside : outline (flush (addAll children ([], [])).1 (addAll children ([], [])).2) =
        outline children := by
      rw [outline_flush, outline_addAll children ([], [])]
      rfl
    show outline (flush r.1 r.2 ++ [.element tag attrs (flush _ _)]) = _
    rw [outline_append, outline_flush]
    show _ ++ (Node.outline (.element tag attrs (flush _ _)) ++ []) = _
    rw [List.append_nil, Node.outline, Node.outline, hinside]

theorem outline_addAll (nodes : List Node) (r : Content) :
    outline (addAll nodes r).1 = outline r.1 ++ outline nodes := by
  cases nodes with
  | nil => exact (List.append_nil _).symm
  | cons node nodes =>
    rw [addAll, outline_addAll nodes, Node.outline_addTo node, outline, List.append_assoc]

end

theorem outline_normal (nodes : List Node) : outline (normal nodes) = outline nodes := by
  show outline (flush _ _) = _
  rw [outline_flush, outline_addAll]
  rfl

/-! ## Pages -/

section Pages

variable {S ε : Type}

/-- What `page` writes is the tree `doc`, and `s` changes no more than the texts of it. -/
structure Stands (page : S → Except ε Text) (doc : S → Except ε (List Node)) : Prop where
  written : ∀ s, page s = (doc s).map render
  named : ∀ s nodes, doc s = .ok nodes → named nodes = true
  outlined : ∀ s s', (doc s).map outline = (doc s').map outline

/-- A page that is never written. -/
theorem Stands.raised (e : ε) :
    Stands (fun _ : S => (.error e : Except ε Text)) (fun _ => .error e) where
  written _ := rfl
  named _ _ h := by cases h
  outlined _ _ := rfl

/-- A page that is always written. -/
theorem Stands.ok {page : S → Text} {doc : S → List Node} (hwritten : ∀ s, page s = render (doc s))
    (hnamed : ∀ s, Html.named (doc s) = true)
    (houtlined : ∀ s s', outline (doc s) = outline (doc s')) :
    Stands (fun s => (.ok (page s) : Except ε Text)) (fun s => .ok (doc s)) where
  written s := congrArg Except.ok (hwritten s)
  named s nodes h := by
    cases h
    exact hnamed s
  outlined s s' := congrArg Except.ok (houtlined s s')

theorem Stands.of_ok {page : S → Text} {doc : S → List Node}
    (h : Stands (fun s => (.ok (page s) : Except ε Text)) (fun s => .ok (doc s))) :
    (∀ s, page s = render (doc s)) ∧ (∀ s, Html.named (doc s) = true) ∧
      ∀ s s', outline (doc s) = outline (doc s') :=
  ⟨fun s => Except.ok.inj (h.written s), fun s => h.named s _ rfl,
    fun s s' => Except.ok.inj (h.outlined s s')⟩

/-- A page around two others. -/
theorem Stands.around {p q : S → Except ε Text} {d e : S → Except ε (List Node)} (hp : Stands p d)
    (hq : Stands q e) (F : S → Text → Text → Text) (G : S → List Node → List Node → List Node)
    (hwritten : ∀ s m n, F s (render m) (render n) = render (G s m n))
    (hnamed : ∀ s m n, Html.named m = true → Html.named n = true → Html.named (G s m n) = true)
    (houtlined : ∀ s s' m m' n n', outline m = outline m' → outline n = outline n' →
      outline (G s m n) = outline (G s' m' n')) :
    Stands (fun s => (p s).bind fun t => (q s).map (F s t))
      (fun s => (d s).bind fun m => (e s).map (G s m)) where
  written s := by
    show (p s).bind (fun t => (q s).map (F s t)) = _
    rw [hp.written s, hq.written s]
    cases d s with
    | error err => rfl
    | ok m =>
      cases e s with
      | error err => rfl
      | ok n => exact congrArg Except.ok (hwritten s m n)
  named s nodes h := by
    change (d s).bind (fun m => (e s).map (G s m)) = _ at h
    cases hm : d s with
    | error err => rw [hm] at h; cases h
    | ok m =>
      cases hn : e s with
      | error err => rw [hm, hn] at h; cases h
      | ok n =>
        rw [hm, hn] at h
        cases h
        exact hnamed s m n (hp.named s m hm) (hq.named s n hn)
  outlined s s' := by
    have hm := hp.outlined s s'
    have hn := hq.outlined s s'
    show Except.map outline ((d s).bind fun m => (e s).map (G s m)) =
      Except.map outline ((d s').bind fun m => (e s').map (G s' m))
    cases hd : d s with
    | error err =>
      cases hd' : d s' with
      | error err' => rw [hd, hd'] at hm; cases hm; rfl
      | ok m' => rw [hd, hd'] at hm; cases hm
    | ok m =>
      cases hd' : d s' with
      | error err' => rw [hd, hd'] at hm; cases hm
      | ok m' =>
        rw [hd, hd'] at hm
        cases he : e s with
        | error err =>
          cases he' : e s' with
          | error err' => rw [he, he'] at hn; cases hn; rfl
          | ok n' => rw [he, he'] at hn; cases hn
        | ok n =>
          cases he' : e s' with
          | error err' => rw [he, he'] at hn; cases hn
          | ok n' =>
            rw [he, he'] at hn
            exact congrArg Except.ok (houtlined s s' m m' n n' (Except.ok.inj hm) (Except.ok.inj hn))

/-- A page around one other. -/
theorem Stands.wrap {p : S → Except ε Text} {d : S → Except ε (List Node)} (hp : Stands p d)
    (F : S → Text → Text) (G : S → List Node → List Node)
    (hwritten : ∀ s m, F s (render m) = render (G s m))
    (hnamed : ∀ s m, Html.named m = true → Html.named (G s m) = true)
    (houtlined : ∀ s s' m m', outline m = outline m' → outline (G s m) = outline (G s' m')) :
    Stands (fun s => (p s).map (F s)) (fun s => (d s).map (G s)) := by
  have hnothing : Stands (fun _ : S => (.ok [] : Except ε Text)) (fun _ => .ok []) :=
    Stands.ok (fun _ => rfl) (fun _ => rfl) fun _ _ => rfl
  have h := hp.around hnothing (fun s t _ => F s t) (fun s m _ => G s m)
    (fun s m _ => hwritten s m) (fun s m _ hm _ => hnamed s m hm)
    fun s s' m m' _ _ hm _ => houtlined s s' m m' hm
  have hpage : (fun s => (p s).map (F s)) =
      fun s => (p s).bind fun t => (Except.ok [] : Except ε Text).map fun _ => F s t := by
    funext s
    cases p s <;> rfl
  have hdoc : (fun s => (d s).map (G s)) =
      fun s => (d s).bind fun m => (Except.ok [] : Except ε (List Node)).map fun _ => G s m := by
    funext s
    cases d s <;> rfl
  rw [hpage, hdoc]
  exact h

/-- A row of pages. -/
theorem Stands.rows {α : Type} {page : S → α → Except ε Text} {doc : S → α → Except ε (List Node)}
    (h : ∀ a, Stands (fun s => page s a) (fun s => doc s a)) (l : List α) :
    Stands (fun s => (l.mapM (page s)).map List.flatten)
      (fun s => (l.mapM (doc s)).map List.flatten) := by
  induction l with
  | nil => exact Stands.ok (fun _ => rfl) (fun _ => rfl) fun _ _ => rfl
  | cons a l ih =>
    have hcons := (h a).around ih (fun _ t u => t ++ u) (fun _ m n => m ++ n)
      (fun _ m n => (render_append m n).symm)
      (fun _ m n hm hn => by rw [named_append, hm, hn]; rfl)
      (fun _ _ m m' n n' hm hn => by rw [outline_append, outline_append, hm, hn])
    have hsplit {β : Type} (f : α → Except ε (List β)) :
        ((a :: l).mapM f).map List.flatten =
          (f a).bind fun t => ((l.mapM f).map List.flatten).map fun u => t ++ u := by
      rw [List.mapM_cons]
      show Except.map _ ((f a).bind fun t => (l.mapM f).bind fun ts => .ok (t :: ts)) = _
      cases f a with
      | error e => rfl
      | ok t => cases l.mapM f <;> rfl
    have hpage : (fun s => ((a :: l).mapM (page s)).map List.flatten) = fun s =>
        (page s a).bind fun t => ((l.mapM (page s)).map List.flatten).map fun u => t ++ u :=
      funext fun s => hsplit (page s)
    have hdoc : (fun s => ((a :: l).mapM (doc s)).map List.flatten) = fun s =>
        (doc s a).bind fun t => ((l.mapM (doc s)).map List.flatten).map fun u => t ++ u :=
      funext fun s => hsplit (doc s)
    rw [hpage, hdoc]
    exact hcons

/-- A row of pages that are always written. -/
theorem Stands.okRows {α : Type} {page : S → α → Text} {doc : S → α → List Node}
    (h : ∀ a, Stands (fun s => (.ok (page s a) : Except ε Text)) (fun s => .ok (doc s a)))
    (l : List α) :
    Stands (fun s => (.ok (l.flatMap (page s)) : Except ε Text))
      (fun s => .ok (l.flatMap (doc s))) := by
  have hall {β : Type} (f : α → List β) :
      ((l.mapM fun a => (.ok (f a) : Except ε (List β))).map List.flatten) =
        .ok (l.flatMap f) := by
    have hmap : (l.mapM fun a => (.ok (f a) : Except ε (List β))) = .ok (l.map f) :=
      List.mapM_pure
    rw [hmap, List.flatMap_def]
    rfl
  have hrows := Stands.rows h l
  simp only [hall] at hrows
  exact hrows

/-- What the reader finds in a page, and that its elements are the same for every `s`. -/
theorem Stands.parse_eq {page : S → Except ε Text} {doc : S → Except ε (List Node)}
    (h : Stands page doc) (s s' : S) :
    (page s).map parse = (doc s).map (fun nodes => some (normal nodes)) ∧
      (page s).map (fun t => (parse t).map outline) =
        (page s').map fun t => (parse t).map outline := by
  have hread (s : S) : (page s).map parse = (doc s).map (fun nodes => some (normal nodes)) := by
    rw [h.written s]
    cases hd : doc s with
    | error e => rfl
    | ok nodes => exact congrArg Except.ok (parse_render nodes (h.named s nodes hd))
  have houtline (s : S) : (page s).map (fun t => (parse t).map outline) =
      ((doc s).map outline).map some := by
    have hmap : (page s).map (fun t => (parse t).map outline) =
        ((page s).map parse).map fun nodes => nodes.map outline := by
      cases page s <;> rfl
    rw [hmap, hread s]
    cases doc s with
    | error e => rfl
    | ok nodes => exact congrArg (fun o => Except.ok (some o)) (outline_normal nodes)
  exact ⟨hread s, by rw [houtline s, houtline s', h.outlined s s']⟩

end Pages

end Html
