import BlockBoard.Text.ClusterClass

/-!
# Clusters

What a reader takes for one character may be written with several: a letter with its accents, a
Hangul syllable, a flag, a family of joined pictures. `clusters` divides a text into such clusters,
by the rules of Unicode for extended grapheme clusters.
-/

namespace BlockBoard

namespace Text

/-- What the unfinished cluster before a character is open for. -/
structure OpenCluster where
  /-- The class of its last character. -/
  last : ClusterClass
  /-- It ends in a pictograph that is at most extended and joined once. -/
  picture : Bool := false
  /-- It ends in an odd number of regional indicators. -/
  halfFlag : Bool := false
  /-- It ends in a consonant with marks that do not end a conjunct. -/
  consonant : Bool := false
  /-- One of those marks is a linker. -/
  linked : Bool := false

namespace OpenCluster

/-- The cluster of a single character. -/
def single (c : Char) : OpenCluster :=
  let cls := ClusterClass.of c
  { last := cls
    picture := cls = .pictograph
    halfFlag := cls = .regional
    consonant := cls = .consonant }

/-- Whether characters of the two classes stay together wherever they follow each other. -/
def alwaysJoined : (left right : ClusterClass) → Bool
  | .carriageReturn, .lineFeed => true
  | .hangulLead, .hangulLead | .hangulLead, .hangulVowel | .hangulLead, .hangulOpen
  | .hangulLead, .hangulClosed => true
  | .hangulOpen, .hangulVowel | .hangulOpen, .hangulTail => true
  | .hangulVowel, .hangulVowel | .hangulVowel, .hangulTail => true
  | .hangulClosed, .hangulTail | .hangulTail, .hangulTail => true
  | _, _ => false

/-- Whether a class of characters stands alone. -/
def standsAlone : ClusterClass → Bool
  | .carriageReturn | .lineFeed | .control => true
  | _ => false

/-- Whether a character belongs to the cluster before it. -/
def takes (o : OpenCluster) (c : Char) : Bool :=
  let cls := ClusterClass.of c
  if standsAlone o.last || standsAlone cls then alwaysJoined o.last cls
  else
    match cls with
    | .extend | .joiner | .spacing => true
    | _ =>
      o.last = .leading || alwaysJoined o.last cls || (cls = .regional && o.halfFlag)
        || (cls = .consonant && o.linked) || (cls = .pictograph && o.picture && o.last = .joiner)

/-- The cluster with a further character. -/
def push (o : OpenCluster) (c : Char) : OpenCluster :=
  let s := single c
  let marked : Bool := (s.last = .extend || s.last = .joiner) && c ≠ '\u200C'
  { last := s.last
    picture :=
      s.picture || (o.picture && o.last ≠ .joiner && (s.last = .extend || s.last = .joiner))
    halfFlag := s.halfFlag && !o.halfFlag
    consonant := s.consonant || (o.consonant && marked)
    linked := o.consonant && marked && (o.linked || isLinker c) }

end OpenCluster

/-- The clusters of characters that follow an unfinished cluster, whose characters are given last
one first. -/
def clustersFrom (o : OpenCluster) (before : List Char) : List Char → List (List Char)
  | [] => [before.reverse]
  | c :: cs =>
    if o.takes c then clustersFrom (o.push c) (c :: before) cs
    else before.reverse :: clustersFrom (.single c) [c] cs

/-- The clusters of a list of characters. -/
def charClusters : List Char → List (List Char)
  | [] => []
  | c :: cs => clustersFrom (.single c) [c] cs

/-- The clusters of a text. -/
def clusters (text : String) : List String :=
  (charClusters text.toList).map String.ofList

end Text

end BlockBoard
