import BoardRollup.Column.Basic
import BoardRollup.Column.Mappable
import BoardRollup.Item.Raw

/-!
# Normalized items

An item as the output shows it: its header, its columns, a mappable value for
each column id, its parent one level up and its subitems one level down. The
maps of this module copy; what relation columns read is the business of the passes
over an item.
-/

namespace BoardRollup

/-- A subitem: its own columns, never aggregated. -/
structure Subitem where
  header : ItemHeader
  columns : List Column
  mappables : Mappables
  deriving DecidableEq

structure ParentItem where
  header : ItemHeader
  columns : List Column
  deriving DecidableEq

structure Item where
  header : ItemHeader
  email : Json
  columns : List Column
  mappables : Mappables
  assets : List Json
  parent : Option ParentItem
  subitems : List Subitem
  deriving DecidableEq

def Subitem.ofRaw (raw : RawItem) : Subitem where
  header := raw.header
  columns := raw.columns.map .ofRaw
  mappables := .ofRaw raw.columns

def ParentItem.ofRaw (raw : RawItem) : ParentItem where
  header := raw.header
  columns := raw.columns.map .ofRaw

namespace Item

/-- The item before any relation column is computed. -/
def copyRaw (raw : RawItem) : Item where
  header := raw.header
  email := raw.email
  columns := raw.columns.map .ofRaw
  mappables := .ofRaw raw.columns
  assets := raw.assets
  parent := raw.parent.map .ofRaw
  subitems := raw.subitems.map .ofRaw

def column? (item : Item) (id : String) : Option Column := Column.find? item.columns id

end Item

def Subitem.column? (subitem : Subitem) (id : String) : Option Column :=
  Column.find? subitem.columns id

end BoardRollup
