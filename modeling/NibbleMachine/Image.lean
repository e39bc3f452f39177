import NibbleMachine.Source.Line

namespace NibbleMachine

/-!
# Program images

An image has exactly `imageSize` words.  The words of the valid lines are
appended one by one; when another line is left for a full image, this is a
finding, and the lines from there on are not looked at.  A shorter program is
followed by zero words.  As text, an image has one line of sixteen binary digits
for each word.
-/

/-- Append the words of lines to an image until it is full. -/
def appendWords (image : List Int) : List Line -> List Int × List Finding
  | [] => (image, [])
  | line :: rest =>
      if image.length = imageSize then (image, [.programTooLong])
      else appendWords (image ++ [line.word]) rest

/-- The image of the valid lines, filled with zero words. -/
def buildImage (lines : List Line) : List Int :=
  let image := (appendWords [] (validLines lines)).1
  image ++ List.replicate (imageSize - image.length) 0

/-- The finding on a program that does not fit. -/
def imageFindings (lines : List Line) : List Finding :=
  (appendWords [] (validLines lines)).2

/-- Words as text, one line each. -/
def renderWords (words : List Int) : String :=
  String.join (words.map fun word => wordText word ++ "\n")

end NibbleMachine
