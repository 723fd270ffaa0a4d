/-!
# Parsing expression grammars

A grammar is data: every rule has a parsing expression, and `Peg.run` reads a text by it. A choice
takes the first option that fits, and a repetition takes as much as it can. What a grammar marks as a
branch or a leaf is kept as a tree; everything else is only recognised.
-/

namespace AutoImport.Source

/-- What a grammar keeps of a text. -/
inductive Tree (Label : Type) where
  | branch (label : Label) (children : List (Tree Label))
  | leaf (label : Label) (text : List Char)
  deriving Inhabited

/-- A parsing expression over the rules of a grammar. -/
inductive Peg (Rule Label : Type) where
  /-- A token; its reader gives what is left of the text after it. -/
  | terminal (read : List Char → Option (List Char))
  | seq (parts : List (Peg Rule Label))
  | choice (options : List (Peg Rule Label))
  | star (body : Peg Rule Label)
  /-- Nothing, in a place where the body does not fit. -/
  | absent (body : Peg Rule Label)
  | rule (name : Rule)
  /-- The body, kept as a branch over what is kept of it. -/
  | branch (label : Label) (body : Peg Rule Label)
  /-- The body, kept as the text that it takes up. -/
  | leaf (label : Label) (body : Peg Rule Label)
  /-- The body, of which nothing is kept. -/
  | quiet (body : Peg Rule Label)

namespace Peg

variable {Rule Label : Type}

def nothing : Peg Rule Label :=
  .seq []

def opt (body : Peg Rule Label) : Peg Rule Label :=
  .choice [body, nothing]

/-- Nothing, in a place where the body fits. -/
def present (body : Peg Rule Label) : Peg Rule Label :=
  .absent (.absent body)

def plus (body : Peg Rule Label) : Peg Rule Label :=
  .seq [body, .star body]

/-- The body once or more often, with separators between. -/
def sepBy (separator body : Peg Rule Label) : Peg Rule Label :=
  .seq [body, .star (.seq [separator, body])]

/-- Reads a text by a parsing expression. The answer is what is left of the text, and what is kept
of it in front of what was kept before, last first. `fuel` bounds the depth of the reading. -/
def run (grammar : Rule → Peg Rule Label) : (fuel : Nat) → Peg Rule Label → List Char →
    List (Tree Label) → Option (List Char × List (Tree Label))
  | 0, _, _, _ => none
  | _ + 1, .terminal read, text, kept => (read text).map fun rest => (rest, kept)
  | _ + 1, .seq [], text, kept => some (text, kept)
  | fuel + 1, .seq (part :: parts), text, kept =>
    match run grammar fuel part text kept with
    | some (rest, kept) => run grammar fuel (.seq parts) rest kept
    | none => none
  | _ + 1, .choice [], _, _ => none
  -- The next option starts over from `kept`, so a failed option leaves nothing behind.
  | fuel + 1, .choice (option :: options), text, kept =>
    match run grammar fuel option text kept with
    | some found => some found
    | none => run grammar fuel (.choice options) text kept
  | fuel + 1, .star body, text, kept =>
    match run grammar fuel body text kept with
    | some (rest, kept) => run grammar fuel (.star body) rest kept
    | none => some (text, kept)
  -- A lookahead starts from an empty record: what it keeps never reaches the tree.
  | fuel + 1, .absent body, text, kept =>
    match run grammar fuel body text [] with
    | some _ => none
    | none => some (text, kept)
  | fuel + 1, .rule name, text, kept => run grammar fuel (grammar name) text kept
  | fuel + 1, .branch label body, text, kept =>
    match run grammar fuel body text [] with
    | some (rest, children) => some (rest, .branch label children.reverse :: kept)
    | none => none
  | fuel + 1, .leaf label body, text, kept =>
    match run grammar fuel body text [] with
    -- The text taken up is what the rest lacks of `text`, whatever the body kept.
    | some (rest, _) => some (rest, .leaf label (text.take (text.length - rest.length)) :: kept)
    | none => none
  | fuel + 1, .quiet body, text, kept =>
    match run grammar fuel body text [] with
    | some (rest, _) => some (rest, kept)
    | none => none

end Peg

end AutoImport.Source
