import Salvage.Json.Printer
import Salvage.Provider.Queue
import Salvage.Provider.Records
import Salvage.Text.Base64

/-!
# Calls as JSON

The bodies of the calls to the record service and the queue service, and the operations they are
sent to.
-/

namespace Salvage

open Json

namespace Attribute

mutual

/-- Writes an attribute: an object that maps its kind to its value. -/
def print : Attribute → List Char
  | .text s => printObject [("S", printText s)]
  | .number s => printObject [("N", printText s)]
  | .bool b => printObject [("BOOL", (toString b).toList)]
  | .null b => printObject [("NULL", (toString b).toList)]
  | .binary bytes => printObject [("B", printText (Text.base64 bytes))]
  | .texts ss => printObject [("SS", printList (ss.map printText))]
  | .numbers ss => printObject [("NS", printList (ss.map printText))]
  | .binaries bss => printObject [("BS", printList (bss.map fun bytes => printText (Text.base64 bytes)))]
  | .list as => printObject [("L", printList (printElements as))]
  | .map es => printObject [("M", printObject (printEntries es))]

/-- Writes each attribute of a list. -/
def printElements : List Attribute → List (List Char)
  | [] => []
  | a :: as => a.print :: printElements as

/-- Writes each attribute of a map. -/
def printEntries : List (String × Attribute) → List (String × List Char)
  | [] => []
  | (k, a) :: es => (k, a.print) :: printEntries es

end

end Attribute

/-- Writes an item. -/
def Item.print (item : Item) : List Char :=
  printObject (Attribute.printEntries item)

/-- The operation of a call of the record service, and its body. -/
def RecordCall.print : RecordCall → String × List Char
  | .get table keys projection =>
    let query := printObject [("Keys", printList (keys.map Item.print)),
      ("ProjectionExpression", printText projection)]
    ("BatchGetItem", printObject [("RequestItems", printObject [(table, query)])])
  | .remove table keys =>
    let delete (key : Item) := printObject [("DeleteRequest", printObject [("Key", key.print)])]
    ("BatchWriteItem", printObject [("RequestItems",
      printObject [(table, printList (keys.map delete))])])

/-- The operation of a call of the queue service, and its body. -/
def QueueCall.print : QueueCall → String × List Char
  | .resolve queue => ("GetQueueUrl", printObject [("QueueName", printText queue)])
  | .receive url maxMessages waitSeconds visibilitySeconds =>
    ("ReceiveMessage", printObject <| [("QueueUrl", printText url),
      ("MaxNumberOfMessages", printInt maxMessages)] ++
      entryIfSome "VisibilityTimeout" printInt visibilitySeconds ++
      [("WaitTimeSeconds", printInt waitSeconds)])
  | .delete url receipt =>
    ("DeleteMessage",
      printObject [("QueueUrl", printText url), ("ReceiptHandle", printText receipt)])
  | .send url body =>
    ("SendMessage", printObject [("QueueUrl", printText url), ("MessageBody", printText body)])

end Salvage
