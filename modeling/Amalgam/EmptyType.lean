import Amalgam.Item

/-! # Types without members

A generator makes the sources of a type that has no members, for a module that generated nothing
itself. The one for Objective-C writes a header and an implementation and refuses names that are no
identifiers.
-/

namespace Amalgam

inductive TypeKind where
  | classType
  | interfaceType
  | enumType
deriving DecidableEq, Repr

abbrev Generator :=
  Text → ModuleInfo → TypeKind → IosLanguage → Except Failure (List NativeSource)

namespace EmptyType

def isNameStart : CodePoint → Bool
  | .char c => c.isAlpha || c = '_'
  | .surrogate _ => false

def isNamePart : CodePoint → Bool
  | .char c => c.isAlphanum || c = '_'
  | .surrogate _ => false

/-- An ASCII letter or underscore, then ASCII letters, digits and underscores. -/
def isIdentifier (text : Text) : Bool :=
  match text.toList with
  | [] => false
  | first :: rest => isNameStart first && rest.all isNamePart

def declaration (typeName : Text) : TypeKind → List Text
  | .classType => ["@interface " ++ typeName ++ " : NSObject", "@end"]
  | .interfaceType => ["@protocol " ++ typeName ++ " <NSObject>", "@end"]
  | .enumType => [
      "typedef NS_ENUM(NSInteger, " ++ typeName ++ ") \x7b", "\t" ++ typeName ++ "None = 0,",
      "\x7d;"]

def headerStart : List Text := [
  "#import <Foundation/Foundation.h>", "", "NS_ASSUME_NONNULL_BEGIN", ""]

def headerEnd : List Text := ["", "NS_ASSUME_NONNULL_END", ""]

def header (typeName : Text) (kind : TypeKind) : Text :=
  Text.joinLines (headerStart ++ declaration typeName kind ++ headerEnd)

def classBody (typeName : Text) : TypeKind → List Text
  | .classType => ["@implementation " ++ typeName, "@end", ""]
  | .interfaceType | .enumType => []

def implementation (headerName typeName : Text) (kind : TypeKind) : Text :=
  let start : List Text := ["#import \"" ++ headerName ++ "\"", ""]
  Text.joinLines (start ++ classBody typeName kind)

def objc : Generator := fun name module kind language =>
  if language ≠ .objc then
    let reason := "cannot emit Objective-C sources for language '" ++ language.name ++ "'"
    .error ⟨.generator, reason⟩
  else
    let stem := module.iosName
    let typeName := stem ++ name
    if !isIdentifier typeName then
      let reason := "'" ++ typeName ++ "' is not a valid Objective-C identifier"
      .error ⟨.generator, reason⟩
    else
      let headerName := stem ++ ".h"
      .ok [
        { NativeSource.single (typeName ++ ".h") (.text (header typeName kind)) (some stem) with
          groupingKey := headerName },
        { NativeSource.single (typeName ++ ".m")
            (.text (implementation headerName typeName kind)) (some stem) with
          groupingKey := stem ++ ".m" }]

end EmptyType

end Amalgam
