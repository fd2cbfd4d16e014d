import ActivityScript.Proofs.Script.Faults
import ActivityScript.Proofs.Script.TextTokens
import ActivityScript.Proofs.Text.Decimals
import ActivityScript.Proofs.Text.Lines
import ActivityScript.Proofs.Text.Quoting
import ActivityScript.Script.Outline

/-!
# Outlines are faithful

An outline shows the face of every node (`Node.face`): its kind and its name or text, and for
assignments and calls where they stand. What it does not show is where literals and references
stand and which entry a call refers to. Trees that differ in nothing else resemble each other
(`Node.Resembles`), and `outline_faithful` says that a program read from a text can be told from its
outline up to that.

The argument has three steps. The outline falls apart into its lines, because no line holds a line
feed (`separated_outlineLines`). A line tells the depth and the face of its node, because names have
no blanks and quoted texts can be read (`Face.eq_of_line_eq`). And the depths of the nodes in
pre-order tell their nesting: what belongs to a node is deeper than the node, up to the next node
that is not (`Node.resembles_of_preorder`). The last step holds for trees of any depth.
-/

namespace ActivityScript.Script

open Text (isPrintable isPrintable_of_ascii separated)

variable {φ ψ : Type}

/-! ## Faces -/

/-- What an outline shows of a node, apart from its depth. -/
inductive Face where
  | assignment (location : Location) (name : String)
  | call (location : Location) (name : String)
  | literal (text : String)
  | reference (name : String)
  | empty
  deriving DecidableEq, Repr

/-- A face in words; an empty node shows nothing. -/
def Face.text : Face → String
  | .assignment location name => "Assignment " ++ name ++ " @ " ++ location.text
  | .call location name => "Call " ++ name ++ " @ " ++ location.text
  | .literal text => "StringLiteral " ++ Text.quoted text
  | .reference name => "Identifier " ++ name
  | .empty => ""

/-- The face of a node. -/
def Node.face : Node φ → Face
  | .assignment location name _ => .assignment location name
  | .call location name _ _ => .call location name
  | .literal _ text => .literal text
  | .reference _ name => .reference name
  | .empty _ => .empty

/-- The line of a node in an outline. -/
def Face.line (depth : Nat) (face : Face) : String := indented depth face.text

/-- A face as it comes from a text: its name is made of the characters of names, and its location
names no file. -/
def Face.Plain : Face → Prop
  | .assignment location name | .call location name =>
    location.file = none ∧ ∀ c ∈ name.toList, isNameChar c
  | .literal _ => True
  | .reference name => ∀ c ∈ name.toList, isNameChar c
  | .empty => False

/-! ## Trees -/

mutual

/-- The nodes of a tree in pre-order, each with its depth. -/
def Node.preorder (depth : Nat) : Node φ → List (Nat × Node φ)
  | .assignment location name value =>
    (depth, .assignment location name value) :: value.preorder (depth + 1)
  | .call location name target arguments =>
    (depth, .call location name target arguments) :: preorderAll (depth + 1) arguments
  | .literal location text => [(depth, .literal location text)]
  | .reference location name => [(depth, .reference location name)]
  | .empty location => [(depth, .empty location)]

/-- The nodes of trees in pre-order, one tree after the other. -/
def preorderAll (depth : Nat) : List (Node φ) → List (Nat × Node φ)
  | [] => []
  | node :: nodes => node.preorder depth ++ preorderAll depth nodes

end

/-- The nodes of trees in pre-order are those of each tree, one tree after the other. All trees are
at the same depth. -/
theorem preorderAll_eq_flatMap (depth : Nat) (nodes : List (Node φ)) :
    preorderAll depth nodes = nodes.flatMap (Node.preorder depth) := by
  induction nodes with
  | nil => rw [preorderAll, List.flatMap_nil]
  | cons node nodes ih => rw [preorderAll, List.flatMap_cons, ih]

/-- Trees that differ at most in where their literals and references stand and in the entries that
their calls refer to. -/
inductive Node.Resembles : Node φ → Node ψ → Prop where
  | assignment {location : Location} {name : String} {value : Node φ} {value' : Node ψ} :
      Resembles value value' →
      Resembles (.assignment location name value) (.assignment location name value')
  | call {location : Location} {name : String} {target : Entry φ} {target' : Entry ψ}
      {arguments : List (Node φ)} {arguments' : List (Node ψ)} :
      List.Forall₂ Resembles arguments arguments' →
      Resembles (.call location name target arguments) (.call location name target' arguments')
  | literal {location location' : Location} {text : String} :
      Resembles (.literal location text) (.literal location' text)
  | reference {location location' : Location} {name : String} :
      Resembles (.reference location name) (.reference location' name)

/-- The depth and the face of a node. -/
def shown (entry : Nat × Node φ) : Nat × Face := (entry.1, entry.2.face)

/-- All nodes have the faces of a text. -/
def PlainFaces (entries : List (Nat × Node φ)) : Prop := ∀ entry ∈ entries, entry.2.face.Plain

/-- Trees whose nodes have the faces of a text, each taken alone, have them all together. -/
theorem plainFaces_preorderAll {depth : Nat} {nodes : List (Node φ)}
    (h : ∀ node ∈ nodes, PlainFaces (node.preorder depth)) :
    PlainFaces (preorderAll depth nodes) := by
  intro entry hmem
  rw [preorderAll_eq_flatMap] at hmem
  obtain ⟨node, hnode, hentry⟩ := List.mem_flatMap.1 hmem
  exact h node hnode entry hentry

/-! ## The lines of an outline -/

section Lines

variable {entries : List (Nat × Node φ)} {face face' : Face} {c : Char} {name : String}

mutual

/-- The outline of a tree has a line for each node, in pre-order. It cannot fail, since nodes with
the faces of a text are never empty. -/
theorem Node.outline_eq (depth : Nat) : ∀ node : Node φ, PlainFaces (node.preorder depth) →
    node.outline depth = .ok ((node.preorder depth).map fun entry => entry.2.face.line entry.1)
  | .assignment location name value, h => by
    rw [Node.preorder] at h ⊢
    rw [Node.outline, value.outline_eq (depth + 1) fun entry hmem =>
      h entry (List.mem_cons_of_mem _ hmem)]
    rfl
  | .call location name target arguments, h => by
    rw [Node.preorder] at h ⊢
    rw [Node.outline, outlineAll_eq (depth + 1) arguments fun entry hmem =>
      h entry (List.mem_cons_of_mem _ hmem)]
    rfl
  | .literal location text, _ => by
    rw [Node.preorder, Node.outline]
    rfl
  | .reference location name, _ => by
    rw [Node.preorder, Node.outline]
    rfl
  | .empty location, h => by
    rw [Node.preorder] at h
    exact (h _ List.mem_cons_self).elim

/-- The outline of several trees has a line for each of their nodes, one tree after the other. -/
theorem outlineAll_eq (depth : Nat) : ∀ nodes : List (Node φ),
    PlainFaces (preorderAll depth nodes) →
    outlineAll depth nodes
      = .ok ((preorderAll depth nodes).map fun entry => entry.2.face.line entry.1)
  | [], _ => by
    rw [preorderAll, outlineAll]
    rfl
  | node :: nodes, h => by
    rw [preorderAll] at h ⊢
    rw [outlineAll, node.outline_eq depth fun entry hmem => h entry (List.mem_append_left _ hmem),
      outlineAll_eq depth nodes fun entry hmem => h entry (List.mem_append_right _ hmem),
      List.map_append]
    rfl

end

/-- The characters of names are printable, as they are letters of ASCII, underscores and points. -/
theorem isPrintable_of_isNameChar (h : isNameChar c) : isPrintable c := by
  rcases isNameChar_iff.1 h with halpha | rfl | rfl
  · have hrange : 65 ≤ c.toNat ∧ c.toNat ≤ 90 ∨ 97 ≤ c.toNat ∧ c.toNat ≤ 122 := by
      rcases Bool.or_eq_true_iff.1 halpha with hupper | hlower
      · exact .inl (of_decide_eq_true hupper)
      · exact .inr (of_decide_eq_true ((Bool.decide_and _ _).trans hlower))
    exact isPrintable_of_ascii (by omega) (by omega)
  · exact isPrintable_of_ascii (by decide) (by decide)
  · exact isPrintable_of_ascii (by decide) (by decide)

/-- No character of a name is a blank. So a name ends at the first blank after it in a line. -/
theorem ne_space_of_isNameChar (h : isNameChar c) : c ≠ ' ' := by
  rintro rfl
  simp [isNameChar_iff] at h

/-- A location without a file is known from its text: two numbers with a colon between them, and
there is no colon in a number. -/
theorem Location.eq_of_text_eq {l l' : Location} (h : l.file = none) (h' : l'.file = none)
    (heq : l.text = l'.text) : l = l' := by
  have hcolon (n : Nat) : ':' ∉ (toString n).toList := by
    intro hmem
    exact absurd (Text.isDigit_of_mem_toString hmem) (by decide)
  obtain ⟨line, column, file⟩ := l
  obtain ⟨line', column', file'⟩ := l'
  obtain rfl : file = none := h
  obtain rfl : file' = none := h'
  have hchars : (toString (line + 1)).toList ++ ':' :: (toString (column + 1)).toList
      = (toString (line' + 1)).toList ++ ':' :: (toString (column' + 1)).toList := by
    simpa [Location.text, Location.position] using congrArg String.toList heq
  obtain ⟨hline, hcolumn⟩ := Text.eq_of_append_cons_eq (hcolon _) (hcolon _) hchars
  have hlines := Text.toString_injective (String.toList_injective hline)
  have hcolumns := Text.toString_injective (String.toList_injective hcolumn)
  rw [Nat.succ.inj hlines, Nat.succ.inj hcolumns]

/-- The text of a location without a file is printable, since it has digits and a colon only. -/
theorem Location.isPrintable_of_mem_text {l : Location} (h : l.file = none)
    (hc : c ∈ l.text.toList) : isPrintable c := by
  have hdigit (n : Nat) (hmem : c ∈ (toString n).toList) : isPrintable c := by
    have hrange : 48 ≤ c.toNat ∧ c.toNat ≤ 57 :=
      Char.isDigit_iff_toNat.1 (Text.isDigit_of_mem_toString hmem)
    exact isPrintable_of_ascii (by omega) (by omega)
  rw [Location.text, h, Location.position] at hc
  simp only [String.toList_append, List.mem_append] at hc
  rcases hc with (hline | hcolon) | hcolumn
  · exact hdigit _ hline
  · obtain rfl : c = ':' := by simpa using hcolon
    exact isPrintable_of_ascii (by decide) (by decide)
  · exact hdigit _ hcolumn

/-- A name and a location are known from the text that has both, since names have no blanks. The
name ends at the first blank. -/
theorem Location.eq_of_named_eq {name' : String} {l l' : Location} (hfile : l.file = none)
    (hfile' : l'.file = none) (hname : ∀ c ∈ name.toList, isNameChar c)
    (hname' : ∀ c ∈ name'.toList, isNameChar c)
    (heq : name ++ (" @ " ++ l.text) = name' ++ (" @ " ++ l'.text)) : l = l' ∧ name = name' := by
  have hchars : name.toList ++ ' ' :: ('@' :: ' ' :: l.text.toList)
      = name'.toList ++ ' ' :: ('@' :: ' ' :: l'.text.toList) := by
    simpa using congrArg String.toList heq
  obtain ⟨hnames, htexts⟩ := Text.eq_of_append_cons_eq
    (fun hmem => ne_space_of_isNameChar (hname _ hmem) rfl)
    (fun hmem => ne_space_of_isNameChar (hname' _ hmem) rfl) hchars
  have htext : l.text.toList = l'.text.toList := by simpa using htexts
  exact ⟨Location.eq_of_text_eq hfile hfile' (String.toList_injective htext),
    String.toList_injective hnames⟩

/-- A face is known from its text. The first word tells the kind, and what follows it the rest; a
quoted text is read back (`Text.quoted_injective`). -/
theorem Face.eq_of_text_eq (h : face.Plain) (h' : face'.Plain) (heq : face.text = face'.text) :
    face = face' := by
  have hchars := congrArg String.toList heq
  cases face with
  | empty => exact h.elim
  | assignment l name =>
    cases face' with
    | empty => exact h'.elim
    | assignment l' name' =>
      simp only [Face.text, String.append_assoc, String.append_right_inj] at heq
      obtain ⟨rfl, rfl⟩ := Location.eq_of_named_eq h.1 h'.1 h.2 h'.2 heq
      rfl
    | call | literal | reference => simp [Face.text] at hchars
  | call l name =>
    cases face' with
    | empty => exact h'.elim
    | call l' name' =>
      simp only [Face.text, String.append_assoc, String.append_right_inj] at heq
      obtain ⟨rfl, rfl⟩ := Location.eq_of_named_eq h.1 h'.1 h.2 h'.2 heq
      rfl
    | assignment | literal | reference => simp [Face.text] at hchars
  | literal text =>
    cases face' with
    | empty => exact h'.elim
    | literal text' =>
      rw [Face.text, Face.text, String.append_right_inj] at heq
      rw [Text.quoted_injective heq]
    | assignment | call | reference => simp [Face.text] at hchars
  | reference name =>
    cases face' with
    | empty => exact h'.elim
    | reference name' =>
      rw [Face.text, Face.text, String.append_right_inj] at heq
      rw [heq]
    | assignment | call | literal => simp [Face.text] at hchars

/-- The text of a face begins with a letter and not with a blank, so that the indentation of its
line can be told. -/
theorem Face.exists_toList_text (h : face.Plain) :
    ∃ c cs, face.text.toList = c :: cs ∧ c ≠ ' ' := by
  cases face with
  | empty => exact h.elim
  | assignment | call | literal | reference => simp [Face.text]

theorem Face.toList_line (depth : Nat) (face : Face) :
    (face.line depth).toList = List.replicate (2 * depth) ' ' ++ face.text.toList := by
  rw [Face.line, indented, String.toList_append, String.toList_ofList]

/-- The depth and the face of a node are known from its line: the blanks in front tell the depth,
and the rest is the text of the face. -/
theorem Face.eq_of_line_eq {depth depth' : Nat} (h : face.Plain) (h' : face'.Plain)
    (heq : face.line depth = face'.line depth') : depth = depth' ∧ face = face' := by
  obtain ⟨c, cs, htext, hc⟩ := Face.exists_toList_text h
  obtain ⟨c', cs', htext', hc'⟩ := Face.exists_toList_text h'
  have hchars := congrArg String.toList heq
  rw [Face.toList_line, Face.toList_line, htext, htext'] at hchars
  obtain ⟨hdepth, hrest⟩ := eq_of_replicate_append_eq hc hc' hchars
  rw [← htext, ← htext'] at hrest
  exact ⟨by omega, Face.eq_of_text_eq h h' (String.toList_injective hrest)⟩

/-- All characters of a line are printable, also those of a quoted text, in which others are
escaped. -/
theorem Face.isPrintable_of_mem_line {depth : Nat} (h : face.Plain)
    (hc : c ∈ (face.line depth).toList) : isPrintable c := by
  have hlabel (label : String) (hascii : ∀ d ∈ label.toList, 0x20 ≤ d.toNat ∧ d.toNat < 0x7f)
      (hmem : c ∈ label.toList) : isPrintable c :=
    isPrintable_of_ascii (hascii c hmem).1 (hascii c hmem).2
  rw [Face.toList_line, List.mem_append] at hc
  rcases hc with hspace | hc
  · rw [List.eq_of_mem_replicate hspace]
    exact isPrintable_of_ascii (by decide) (by decide)
  · cases face with
    | empty => exact h.elim
    | assignment l name | call l name =>
      simp only [Face.text, String.toList_append, List.mem_append] at hc
      rcases hc with ((hmem | hmem) | hmem) | hmem
      · exact hlabel _ (by simp) hmem
      · exact isPrintable_of_isNameChar (h.2 c hmem)
      · exact hlabel _ (by simp) hmem
      · exact Location.isPrintable_of_mem_text h.1 hmem
    | literal text =>
      rw [Face.text, String.toList_append, List.mem_append] at hc
      rcases hc with hmem | hmem
      · exact hlabel _ (by simp) hmem
      · exact Text.isPrintable_of_mem_quoted hmem
    | reference name =>
      rw [Face.text, String.toList_append, List.mem_append] at hc
      rcases hc with hmem | hmem
      · exact hlabel _ (by simp) hmem
      · exact isPrintable_of_isNameChar (h c hmem)

end Lines

/-! ## Trees from their nodes in pre-order -/

/-- What follows the nodes of a tree or of several trees: nothing, or first a node that is not as
deep as `bound`. -/
def Shallow (bound : Nat) (rest : List (Nat × Face)) : Prop := ∀ entry ∈ rest.head?, entry.1 < bound

theorem Shallow.mono {bound : Nat} {rest : List (Nat × Face)} (h : Shallow bound rest) :
    Shallow (bound + 1) rest :=
  fun entry hmem => Nat.lt_succ_of_lt (h entry hmem)

theorem Node.exists_preorder_eq (depth : Nat) (node : Node φ) :
    ∃ below, node.preorder depth = (depth, node) :: below := by
  cases node <;> exact ⟨_, by rw [Node.preorder]⟩

/-- The next trees are as deep as the one before them, so they are not as deep as what belongs to
it. If there are none, what follows is even less deep. -/
theorem shallow_preorderAll {depth : Nat} {rest : List (Nat × Face)} (h : Shallow depth rest)
    (nodes : List (Node φ)) :
    Shallow (depth + 1) ((preorderAll depth nodes).map shown ++ rest) := by
  cases nodes with
  | nil =>
    rw [preorderAll]
    exact h.mono
  | cons node nodes =>
    obtain ⟨below, hbelow⟩ := node.exists_preorder_eq depth
    rw [preorderAll, hbelow]
    intro entry hmem
    cases hmem
    exact Nat.lt_succ_self depth

mutual

/-- Trees whose nodes have the same depths and faces in pre-order resemble each other, whatever
follows them. What follows must not be deep enough to belong to them. -/
theorem Node.resembles_of_preorder (depth : Nat) : ∀ (node : Node φ) (node' : Node ψ)
    {rest rest' : List (Nat × Face)}, PlainFaces (node.preorder depth) →
    Shallow (depth + 1) rest → Shallow (depth + 1) rest' →
    (node.preorder depth).map shown ++ rest = (node'.preorder depth).map shown ++ rest' →
    node.Resembles node' ∧ rest = rest'
  | .assignment location name value, node', rest, rest', hplain, hrest, hrest', heq => by
    rw [Node.preorder] at hplain heq
    cases node' with
    | assignment location' name' value' =>
      rw [Node.preorder] at heq
      obtain ⟨hface, hbelow⟩ := List.cons.inj heq
      cases hface
      obtain ⟨hvalue, rfl⟩ := value.resembles_of_preorder (depth + 1) value'
        (fun entry hmem => hplain entry (List.mem_cons_of_mem _ hmem)) hrest.mono hrest'.mono hbelow
      exact ⟨.assignment hvalue, rfl⟩
    | call | literal | reference | empty =>
      rw [Node.preorder] at heq
      cases (List.cons.inj heq).1
  | .call location name target arguments, node', rest, rest', hplain, hrest, hrest', heq => by
    rw [Node.preorder] at hplain heq
    cases node' with
    | call location' name' target' arguments' =>
      rw [Node.preorder] at heq
      obtain ⟨hface, hbelow⟩ := List.cons.inj heq
      cases hface
      obtain ⟨harguments, rfl⟩ := resembles_of_preorderAll (depth + 1) arguments arguments'
        (fun entry hmem => hplain entry (List.mem_cons_of_mem _ hmem)) hrest hrest' hbelow
      exact ⟨.call harguments, rfl⟩
    | assignment | literal | reference | empty =>
      rw [Node.preorder] at heq
      cases (List.cons.inj heq).1
  | .literal location text, node', rest, rest', _, _, _, heq => by
    rw [Node.preorder] at heq
    cases node' with
    | literal location' text' =>
      rw [Node.preorder] at heq
      obtain ⟨hface, rfl⟩ := List.cons.inj heq
      cases hface
      exact ⟨.literal, rfl⟩
    | assignment | call | reference | empty =>
      rw [Node.preorder] at heq
      cases (List.cons.inj heq).1
  | .reference location name, node', rest, rest', _, _, _, heq => by
    rw [Node.preorder] at heq
    cases node' with
    | reference location' name' =>
      rw [Node.preorder] at heq
      obtain ⟨hface, rfl⟩ := List.cons.inj heq
      cases hface
      exact ⟨.reference, rfl⟩
    | assignment | call | literal | empty =>
      rw [Node.preorder] at heq
      cases (List.cons.inj heq).1
  | .empty location, _, _, _, hplain, _, _, _ => by
    rw [Node.preorder] at hplain
    exact (hplain _ List.mem_cons_self).elim

/-- Lists of trees whose nodes have the same depths and faces in pre-order resemble each other, tree
by tree. The lists end at the first node that is less deep. -/
theorem resembles_of_preorderAll (depth : Nat) : ∀ (nodes : List (Node φ)) (nodes' : List (Node ψ))
    {rest rest' : List (Nat × Face)}, PlainFaces (preorderAll depth nodes) →
    Shallow depth rest → Shallow depth rest' →
    (preorderAll depth nodes).map shown ++ rest = (preorderAll depth nodes').map shown ++ rest' →
    List.Forall₂ Node.Resembles nodes nodes' ∧ rest = rest'
  | [], nodes', rest, rest', _, hrest, _, heq => by
    cases nodes' with
    | nil =>
      rw [preorderAll, preorderAll] at heq
      exact ⟨.nil, heq⟩
    | cons node' nodes' =>
      -- A further node would be as deep as what follows must not be.
      obtain ⟨below, hbelow⟩ := node'.exists_preorder_eq depth
      rw [preorderAll, preorderAll, hbelow] at heq
      have hfirst : rest.head? = some (depth, node'.face) := congrArg List.head? heq
      exact absurd (hrest _ hfirst) (Nat.lt_irrefl depth)
  | node :: nodes, nodes', rest, rest', hplain, hrest, hrest', heq => by
    rw [preorderAll] at hplain heq
    cases nodes' with
    | nil =>
      obtain ⟨below, hbelow⟩ := node.exists_preorder_eq depth
      rw [preorderAll, hbelow] at heq
      have hfirst : rest'.head? = some (depth, node.face) := (congrArg List.head? heq).symm
      exact absurd (hrest' _ hfirst) (Nat.lt_irrefl depth)
    | cons node' nodes' =>
      rw [preorderAll, List.map_append, List.map_append, List.append_assoc, List.append_assoc]
        at heq
      obtain ⟨hnode, hmore⟩ := node.resembles_of_preorder depth node'
        (fun entry hmem => hplain entry (List.mem_append_left _ hmem))
        (shallow_preorderAll hrest nodes) (shallow_preorderAll hrest' nodes') heq
      obtain ⟨hnodes, rfl⟩ := resembles_of_preorderAll depth nodes nodes'
        (fun entry hmem => hplain entry (List.mem_append_right _ hmem)) hrest hrest' hmore
      exact ⟨.cons hnode hnodes, rfl⟩

end

mutual

/-- Trees that resemble each other show the same, node by node. This is the easy direction, for
trees at any depth. -/
theorem Node.Resembles.preorder_eq (depth : Nat) : ∀ {node : Node φ} {node' : Node ψ},
    node.Resembles node' →
    (node.preorder depth).map shown = (node'.preorder depth).map shown
  | .assignment .., _, .assignment hvalue => by
    rw [Node.preorder, Node.preorder, List.map_cons, List.map_cons,
      hvalue.preorder_eq (depth + 1)]
    rfl
  | .call .., _, .call harguments => by
    rw [Node.preorder, Node.preorder, List.map_cons, List.map_cons,
      preorderAll_eq_of_resembles (depth + 1) harguments]
    rfl
  | .literal .., _, .literal => by
    rw [Node.preorder, Node.preorder]
    rfl
  | .reference .., _, .reference => by
    rw [Node.preorder, Node.preorder]
    rfl

theorem preorderAll_eq_of_resembles (depth : Nat) : ∀ {nodes : List (Node φ)}
    {nodes' : List (Node ψ)}, List.Forall₂ Node.Resembles nodes nodes' →
    (preorderAll depth nodes).map shown = (preorderAll depth nodes').map shown
  | [], _, .nil => by rw [preorderAll, preorderAll]; rfl
  | _ :: _, _, .cons hnode hnodes => by
    rw [preorderAll, preorderAll, List.map_append, List.map_append, hnode.preorder_eq depth,
      preorderAll_eq_of_resembles depth hnodes]

end

/-! ## Programs read from texts -/

section Reading

variable {registry : Registry φ} {line tokens : List Token} {node : Node φ}
  {program : List (Node φ)} {s : String}

/-- A token as it comes from a text without a file name. -/
def Token.Plain (token : Token) : Prop :=
  token.location.file = none ∧
    ∀ name, token.lexeme = .identifier name → ∀ c ∈ name.toList, isNameChar c

/-- A name is spelled with the characters of names, the first of which is one of those as well. -/
theorem Spells.isNameChar {text : List Char} {name : String}
    (h : Spells text (.identifier name)) : ∀ c ∈ name.toList, isNameChar c := by
  cases h with
  | @name c word hc hword =>
    intro d hmem
    rw [String.toList_ofList, List.mem_cons] at hmem
    rw [isNameChar_iff]
    rcases hmem with rfl | hmem
    · exact hc.imp_right .inl
    · exact hword d hmem

/-- What was taken from a line was spelled there, every lexeme of it. -/
theorem TakenApart.exists_spells {column next : Nat} {cs rest : List Char}
    {found : List (Nat × Lexeme)} (h : TakenApart column cs found next rest) :
    ∀ entry ∈ found, ∃ text, Spells text entry.2 := by
  induction h with
  | done => exact fun entry hmem => absurd hmem List.not_mem_nil
  | blank _ _ ih => exact ih
  | lexeme hlongest _ ih =>
    intro entry hmem
    rcases List.mem_cons.1 hmem with rfl | hmem
    · exact ⟨_, hlongest.spells⟩
    · exact ih entry hmem

/-- The tokens of a text without a file name are plain: their names were spelled in the text, and
their places name no file. -/
theorem Token.plain_of_tokenize (h : tokenize (.text s) none = .ok tokens) :
    ∀ token ∈ tokens, token.Plain := by
  obtain ⟨found, fault?, hlexed⟩ := exists_lexed none (Text.physicalLines s.toList)
  rw [hlexed.tokenize] at h
  cases hlexed with
  | offending => cases h
  | @complete founds hlines =>
    cases h
    intro token hmem
    rcases List.mem_append.1 hmem with hmem | hmem
    · obtain ⟨⟨⟨line, found⟩, k⟩, hentry, hmem⟩ := List.mem_flatMap.1 hmem
      have hzip : (line, found) ∈ (Text.physicalLines s.toList).zip founds :=
        List.fst_mem_of_mem_zipIdx hentry
      obtain ⟨next, rest, hapart, -⟩ := (List.forall₂_iff_zip.1 hlines).2 hzip
      rcases List.mem_append.1 hmem with hmem | hmem
      · obtain ⟨⟨column, lexeme⟩, hfound, rfl⟩ := List.mem_map.1 hmem
        obtain ⟨text, hspells⟩ := hapart.exists_spells _ hfound
        refine ⟨rfl, fun name heq => ?_⟩
        dsimp only at heq
        rw [heq] at hspells
        exact hspells.isNameChar
      · rw [List.mem_singleton.1 hmem]
        exact ⟨rfl, fun name heq => by cases heq⟩
    · rw [List.mem_singleton.1 hmem]
      exact ⟨rfl, fun name heq => by cases heq⟩

theorem ReadsArgument.plainFaces {token : Token} (h : ReadsArgument token node)
    (htoken : token.Plain) (depth : Nat) : PlainFaces (node.preorder depth) := by
  cases h with
  | reference =>
    rw [Node.preorder]
    exact List.forall_mem_singleton.2 (htoken.2 _ rfl)
  | literal =>
    rw [Node.preorder]
    exact List.forall_mem_singleton.2 trivial

/-- The tree of a call has the faces of a text if its tokens are plain: the name of the call, and
each of its arguments. -/
theorem ReadsCall.plainFaces (h : ReadsCall registry line node)
    (hline : ∀ token ∈ line, token.Plain) (depth : Nat) : PlainFaces (node.preorder depth) := by
  obtain ⟨hargs, -⟩ := h
  obtain ⟨hname, harguments⟩ := List.forall_mem_cons.1 hline
  rw [Node.preorder]
  refine List.forall_mem_cons.2
    ⟨⟨hname.1, hname.2 _ rfl⟩, plainFaces_preorderAll fun node hnode => ?_⟩
  obtain ⟨token, htoken, hreads⟩ := exists_mem_of_forall₂ hargs node hnode
  exact hreads.plainFaces (harguments token htoken) _

/-- The tree of a statement has the faces of a text if its tokens are plain, whether it is a call or
an assignment. -/
theorem Reads.plainFaces (h : Reads registry line node) (hline : ∀ token ∈ line, token.Plain)
    (depth : Nat) : PlainFaces (node.preorder depth) := by
  cases h with
  | call hcall => exact hcall.plainFaces hline depth
  | bindText =>
    have hname := hline _ List.mem_cons_self
    rw [Node.preorder, Node.preorder]
    exact List.forall_mem_cons.2 ⟨⟨hname.1, hname.2 _ rfl⟩, List.forall_mem_singleton.2 trivial⟩
  | bindCall hcall =>
    have hname := hline _ List.mem_cons_self
    rw [Node.preorder]
    exact List.forall_mem_cons.2 ⟨⟨hname.1, hname.2 _ rfl⟩, hcall.plainFaces
      (fun token hmem => hline token (List.mem_cons_of_mem _ (List.mem_cons_of_mem _ hmem))) _⟩

/-- A program that was read from a text has the faces of a text. Each of its trees was read from
tokens of the text. -/
theorem plainFaces_of_read (h : read registry (.text s) none = .ok program) :
    PlainFaces (preorderAll 0 program) := by
  obtain ⟨tokens, htokens, hparse⟩ := exists_parse_of_read h
  obtain ⟨lines, hsubset, hreads⟩ := exists_reads_of_parse hparse
  have hplain := Token.plain_of_tokenize htokens
  refine plainFaces_preorderAll fun node hnode => ?_
  obtain ⟨line, hline, hnode⟩ := exists_mem_of_forall₂ hreads node hnode
  exact hnode.plainFaces (fun token hmem => hplain token (hsubset line hline hmem)) 0

end Reading

/-! ## Outlines of programs -/

section Programs

variable {program : List (Node φ)} {program' : List (Node ψ)}

/-- The lines of nodes, one for each. -/
def outlineLines (entries : List (Nat × Node φ)) : List String :=
  entries.map fun (depth, node) => node.face.line depth

/-- The lines of nodes depend only on what is shown of them, their depths and their faces. -/
theorem outlineLines_eq_map_shown (entries : List (Nat × Node φ)) :
    outlineLines entries = (entries.map shown).map fun (depth, face) => face.line depth := by
  rw [outlineLines, List.map_map]
  rfl

/-- The outline of a program with the faces of a text is its lines, with line feeds between them. -/
theorem outline_of_plainFaces (h : PlainFaces (preorderAll 0 program)) :
    outline program = .ok ("\n".intercalate (outlineLines (preorderAll 0 program))) := by
  rw [outline, outlineAll_eq 0 program h]
  rfl

section Lines

variable {entries : List (Nat × Node φ)} (h : PlainFaces entries)
include h

/-- All characters of the lines of an outline are printable, whatever texts the program holds. -/
theorem isPrintable_of_mem_outlineLines {line : String} (hline : line ∈ outlineLines entries)
    {c : Char} (hc : c ∈ line.toList) : isPrintable c := by
  obtain ⟨⟨depth, node⟩, hmem, rfl⟩ := List.mem_map.1 hline
  exact Face.isPrintable_of_mem_line (h _ hmem) hc

/-- No line of an outline has a line feed in it, because a line feed is not printable. -/
theorem feed_notMem_of_mem_outlineLines :
    ∀ chars ∈ (outlineLines entries).map String.toList, '\n' ∉ chars := by
  intro chars hchars hfeed
  obtain ⟨line, hline, rfl⟩ := List.mem_map.1 hchars
  exact Text.ne_of_isPrintable (isPrintable_of_mem_outlineLines h hline hfeed) rfl

/-- An outline falls apart into its lines: none of them has a line feed in it, and none is empty. -/
theorem separated_outlineLines :
    separated '\n' ("\n".intercalate (outlineLines entries)).toList
      = (outlineLines entries).map String.toList := by
  rw [String.toList_intercalate]
  refine Text.separated_intercalate (feed_notMem_of_mem_outlineLines h) fun chars hchars hnil => ?_
  obtain ⟨line, hline, rfl⟩ := List.mem_map.1 hchars
  obtain ⟨⟨depth, node⟩, hmem, rfl⟩ := List.mem_map.1 hline
  obtain ⟨c, cs, htext, -⟩ := Face.exists_toList_text (h _ hmem)
  simp [Face.toList_line, htext] at hnil

/-- All characters of an outline are printable, but for the line feeds between its lines. -/
theorem isPrintable_of_mem_outline {c : Char}
    (hc : c ∈ ("\n".intercalate (outlineLines entries)).toList) : c = '\n' ∨ isPrintable c := by
  by_cases hfeed : c = '\n'
  · exact .inl hfeed
  · rw [String.toList_intercalate] at hc
    obtain ⟨chars, hchars, hmem⟩ := (Text.mem_intercalate_iff hfeed).1 hc
    obtain ⟨line, hline, rfl⟩ := List.mem_map.1 hchars
    exact .inr (isPrintable_of_mem_outlineLines h hline hmem)

/-- Nodes with the same lines show the same, since depth and face are known from the line
(`Face.eq_of_line_eq`). -/
theorem map_shown_eq_of_outlineLines_eq {entries' : List (Nat × Node ψ)}
    (h' : PlainFaces entries') (heq : outlineLines entries = outlineLines entries') :
    entries.map shown = entries'.map shown := by
  induction entries generalizing entries' with
  | nil =>
    cases entries' with
    | nil => rfl
    | cons entry' entries' => cases heq
  | cons entry entries ih =>
    cases entries' with
    | nil => cases heq
    | cons entry' entries' =>
      obtain ⟨hentry, hentries⟩ := List.forall_mem_cons.1 h
      obtain ⟨hentry', hentries'⟩ := List.forall_mem_cons.1 h'
      obtain ⟨hline, hlines⟩ := List.cons.inj heq
      obtain ⟨hdepth, hface⟩ := Face.eq_of_line_eq hentry hentry' hline
      rw [List.map_cons, List.map_cons, shown, shown, hdepth, hface,
        ih hentries hentries' hlines]

end Lines

/-- **An outline is faithful.** Let two programs be read from texts. Each has an outline, and the
outlines are equal if and only if the programs differ at most in where their literals and references
stand and in the entries that their calls refer to. An outline has one line for each node, in
pre-order and indented by its depth, whatever the literals hold: but for the line feeds between the
lines, all its characters are printable. -/
theorem outline_faithful {registry : Registry φ} {registry' : Registry ψ} {s s' : String}
    (hread : read registry (.text s) none = .ok program)
    (hread' : read registry' (.text s') none = .ok program') :
    ∃ text text', outline program = .ok text ∧ outline program' = .ok text' ∧
      (text = text' ↔ List.Forall₂ Node.Resembles program program') ∧
      separated '\n' text.toList
        = (preorderAll 0 program).map (fun (depth, node) => (node.face.line depth).toList) ∧
      ∀ c ∈ text.toList, c = '\n' ∨ isPrintable c := by
  have hplain := plainFaces_of_read hread
  have hplain' := plainFaces_of_read hread'
  have hlines := separated_outlineLines hplain
  refine ⟨_, _, outline_of_plainFaces hplain, outline_of_plainFaces hplain', ⟨?_, ?_⟩, ?_, ?_⟩
  · intro heq
    have hequal : outlineLines (preorderAll 0 program) = outlineLines (preorderAll 0 program') := by
      rw [heq, separated_outlineLines hplain'] at hlines
      exact (List.map_injective_iff.2 (fun _ _ => String.toList_injective) hlines).symm
    have hshown := map_shown_eq_of_outlineLines_eq hplain hplain' hequal
    have hnone : Shallow 0 [] := fun entry hmem => absurd hmem (Option.not_mem_none _)
    exact (resembles_of_preorderAll 0 program program' hplain hnone hnone
      (congrArg (· ++ []) hshown)).1
  · intro hresembles
    rw [outlineLines_eq_map_shown, preorderAll_eq_of_resembles 0 hresembles,
      ← outlineLines_eq_map_shown]
  · rw [hlines, outlineLines, List.map_map]
    rfl
  · exact fun c hc => isPrintable_of_mem_outline hplain hc

/-- One literal stands at another place in another spelling, and the other holds an apostrophe, a
carriage return and a line separator. The outline is the same and has three lines. -/
theorem outline_faithful_spellings :
    let f : Entry Unit := ⟨"f", ["*texts"], ⟨0, true⟩, ()⟩
    let f' : Entry Nat := ⟨"f", ["a", "b"], ⟨2, false⟩, 0⟩
    let s := "f :a \"'\r\u2028\"\n"
    let s' := "f  \"a\"  \"'\r\u2028\" # again"
    let program : List (Node Unit) := [.call ⟨0, 0, none⟩ "f" f
      [.literal ⟨0, 2, none⟩ "a", .literal ⟨0, 5, none⟩ "'\r\u2028"]]
    let program' : List (Node Nat) := [.call ⟨0, 0, none⟩ "f" f'
      [.literal ⟨0, 3, none⟩ "a", .literal ⟨0, 8, none⟩ "'\r\u2028"]]
    read ⟨[f]⟩ (.text s) none = .ok program ∧ read ⟨[f']⟩ (.text s') none = .ok program' ∧
      List.Forall₂ Node.Resembles program program' ∧
      ∃ text, outline program = .ok text ∧
        (separated '\n' text.toList).map String.ofList
          = ["Call f @ 1:1", "  StringLiteral 'a'", "  StringLiteral \"'\\r\\u2028\""] := by
  intro f f' s s' program program'
  have hread : read ⟨[f]⟩ (.text s) none = .ok program := by
    have htokens : tokenize (.text s) none = .ok
        [⟨.identifier "f", ⟨0, 0, none⟩⟩, ⟨.literal "a", ⟨0, 2, none⟩⟩,
          ⟨.literal "'\r\u2028", ⟨0, 5, none⟩⟩, ⟨.endOfLine, ⟨0, 10, none⟩⟩,
          ⟨.endOfInput, ⟨1, 0, none⟩⟩] := by
      decide +kernel
    rw [read_of_tokenize htokens, parse_eq_parseStatements _ (List.cons_ne_nil _ _),
      parseStatements_cons rfl rfl, parseStatements]
    rfl
  have hread' : read ⟨[f']⟩ (.text s') none = .ok program' := by
    have htokens : tokenize (.text s') none = .ok
        [⟨.identifier "f", ⟨0, 0, none⟩⟩, ⟨.literal "a", ⟨0, 3, none⟩⟩,
          ⟨.literal "'\r\u2028", ⟨0, 8, none⟩⟩, ⟨.endOfLine, ⟨0, 21, none⟩⟩,
          ⟨.endOfInput, ⟨1, 0, none⟩⟩] := by
      decide +kernel
    rw [read_of_tokenize htokens, parse_eq_parseStatements _ (List.cons_ne_nil _ _),
      parseStatements_cons rfl rfl, parseStatements]
    rfl
  obtain ⟨text, text', houtline, houtline', hiff, hlines, -⟩ := outline_faithful hread hread'
  have hsame : outline program = outline program' := by decide +kernel
  rw [houtline, houtline'] at hsame
  refine ⟨hread, hread', hiff.1 (Except.ok.inj hsame), text, houtline, ?_⟩
  rw [hlines]
  decide +kernel

end Programs

end ActivityScript.Script
