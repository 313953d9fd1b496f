namespace PushDelivery.Text

/-- The parts of a text between its separators; there is one more part than separators. -/
def split (separator : Char) : List Char → List (List Char)
  | [] => [[]]
  | c :: rest =>
    if c = separator then [] :: split separator rest
    else
      match split separator rest with
      | [] => [[c]]
      | part :: others => (c :: part) :: others

end PushDelivery.Text
