set_option autoImplicit false

namespace XmlDelta.Report

inductive Color where
  | red
  | green
  | yellow
  deriving DecidableEq

def Color.code : Color → String
  | red => "31"
  | green => "32"
  | yellow => "33"

structure Fragment where
  text : String
  color : Option Color := none

namespace Fragment

def plain (s : String) : Fragment :=
  ⟨s, none⟩

def colored (c : Color) (s : String) : Fragment :=
  ⟨s, some c⟩

def escape : String := String.ofList [Char.ofNat 27, '[']

def paint (colors : Bool) (s : Fragment) : String :=
  match s.color, colors with
  | some c, true => escape ++ c.code ++ "m" ++ s.text ++ escape ++ "0m"
  | _, _ => s.text

end Fragment

def paint (colors : Bool) (fragments : List Fragment) : String :=
  String.join (fragments.map (Fragment.paint colors))

theorem paint_false (fragments : List Fragment) :
    paint false fragments = String.join (fragments.map Fragment.text) := by
  simp only [paint]
  congr 1
  apply List.map_congr_left
  intro s _
  cases h : s.color <;> simp [Fragment.paint, h]

end XmlDelta.Report
