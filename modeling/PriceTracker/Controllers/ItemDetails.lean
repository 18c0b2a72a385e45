import PriceTracker.Controllers.People

/-!
# The page of one item

A tap on a row of an item table opens a page with the texts of that item. Three pages do this: one
for the own items, one for those of a user from the feed and one for those of a user from the
search. Only `prepare` tells them apart.
-/

namespace PriceTracker

/-- The texts of the four labels; `none` is a label without text. -/
structure ItemLabels where
  itemNameLabel : Option String
  sizeLabel : Option String
  colorLabel : Option String
  linkLabel : Option String
  deriving DecidableEq, Repr

/-- `viewDidLoad` of the three pages, with the item that was handed over. -/
def itemLabels (item : Option Item) : ItemLabels where
  itemNameLabel := item.map Item.itemName
  sizeLabel := item.map Item.itemSize
  colorLabel := item.map Item.itemColor
  linkLabel := item.map Item.itemURL

structure ItemEditVC where
  itemFromProfile : Option Item := none
  deriving DecidableEq, Repr

def ItemEditVC.viewDidLoad (vc : ItemEditVC) : ItemLabels := itemLabels vc.itemFromProfile

structure ItemVC where
  itemFromUser : Option Item := none
  deriving DecidableEq, Repr

def ItemVC.viewDidLoad (vc : ItemVC) : ItemLabels := itemLabels vc.itemFromUser

structure ItemCopyVC where
  itemFromUserCopy : Option Item := none
  deriving DecidableEq, Repr

def ItemCopyVC.viewDidLoad (vc : ItemCopyVC) : ItemLabels := itemLabels vc.itemFromUserCopy

/-! `prepare(for:sender:)` of the pages with an item table. -/

def ProfileVC.prepare (vc : ProfileVC) : ItemEditVC :=
  { itemFromProfile := vc.itemToSend }

def UserVC.prepare (vc : UserVC) : ItemVC :=
  { itemFromUser := vc.itemToSend }

def UserCopyVC.prepare (vc : UserCopyVC) : ItemCopyVC :=
  { itemFromUserCopy := vc.itemToSend }

end PriceTracker
